import StandingQuery.OrderedMap

/-!
# A broker of topics

A broker holds topics, each with its partitions and its configuration, and answers four kinds
of calls. Each call is atomic: it reads and changes the topics in one step. The broker keeps a
log of the calls that reached its topics and counts the changes they made.

A call may fail before it reaches the topics, as `faults` says for each request; a description
may be replaced by another, and creations may lose a race against a topic that appears at the
same moment.

* `Broker.topics_serve_topicExists`: asking whether a topic exists changes no topic.
-/

namespace StandingQuery

/-! ## Topics -/

/-- A partition, with the brokers that hold a replica of it. -/
structure Partition where
  id : Nat
  replicas : List Int
  deriving DecidableEq, Repr

def Partition.replicationFactor (p : Partition) : Nat := p.replicas.length

/-- Settings of a topic. -/
abbrev TopicConfig := OrderedMap String

/-- What a broker says about a topic. -/
structure TopicDescription where
  name : String
  partitions : List Partition
  deriving DecidableEq, Repr

namespace TopicDescription

def partitionCount (d : TopicDescription) : Nat := d.partitions.length

/-- The least number of replicas of a partition. -/
def minReplicationFactor? (d : TopicDescription) : Option Nat :=
  (d.partitions.map Partition.replicationFactor).min?

end TopicDescription

/-- A topic: its partitions and its settings. -/
structure Topic where
  partitions : List Partition
  config : TopicConfig
  deriving DecidableEq

namespace Topic

/-- Partitions that all have replicas on the first so many brokers. -/
def evenPartitions (partitions replicas : Nat) : List Partition :=
  (List.range partitions).map fun id => ⟨id, (List.range replicas).map Int.ofNat⟩

/-- A topic with evenly replicated partitions. -/
def even (partitions replicas : Nat) (config : TopicConfig) : Topic :=
  ⟨evenPartitions partitions replicas, config⟩

end Topic

/-! ## Calls -/

/-- Why a broker does not do what it was asked. -/
inductive BrokerError
  | topicExists (topic : String)
  | topicNotFound (topic : String)
  | timeout (text : String)
  | request (text : String)
  deriving DecidableEq, Repr

def BrokerError.message : BrokerError → String
  | topicExists topic => s!"topic '{topic}' already exists"
  | topicNotFound topic => s!"topic '{topic}' does not exist"
  | timeout text => s!"broker request timed out: {text}"
  | request text => s!"broker request failed: {text}"

/-- A call to a broker. -/
inductive BrokerCall
  | topicExists (name : String)
  | describe (name : String)
  | create (name : String) (partitions replicas : Nat) (config : TopicConfig)
  | addConfig (name : String) (config : TopicConfig)
  deriving DecidableEq

namespace BrokerCall

/-- What a call yields: whether the topic exists, its description, nothing, or whether the
settings have changed. -/
def Reply : BrokerCall → Type
  | topicExists _ => Bool
  | describe _ => TopicDescription
  | create _ _ _ _ => Unit
  | addConfig _ _ => Bool

/-- Whether a call asks for a new topic. -/
def isCreate : BrokerCall → Bool
  | create _ _ _ _ => true
  | _ => false

end BrokerCall

/-! ## The broker -/

/-- A broker. -/
structure Broker where
  topics : OrderedMap Topic := .empty
  /-- Descriptions that replace those of topics the broker has. -/
  described : OrderedMap (List Partition) := .empty
  /-- Whether every creation finds that the topic has just appeared. -/
  createRaces : Bool := false
  /-- The error of a call, by the number of requests before it, if it fails. -/
  faults : Nat → BrokerCall → Option BrokerError := fun _ _ => none
  /-- How many calls have been made, failing ones included. -/
  requests : Nat := 0
  /-- The calls that reached the topics, in order. -/
  log : List BrokerCall := []
  /-- How many calls have changed a topic or made one. -/
  mutations : Nat := 0

namespace Broker

/-- The settings with others added, and whether this changes them. -/
def mergeConfig (config added : TopicConfig) : TopicConfig × Bool :=
  added.entries.foldl
    (fun (config, changed) (key, value) =>
      if config.find? key = some value then (config, changed)
      else (config.insert key value, true))
    (config, false)

/-- The effect of a call on the topics, and its answer. -/
def act (b : Broker) : (call : BrokerCall) → Except BrokerError call.Reply × Broker
  | .topicExists name => (.ok (b.topics.contains name), b)
  | .describe name =>
    match b.topics.find? name with
    | none => (.error (.topicNotFound name), b)
    | some topic =>
      (.ok { name := name, partitions := (b.described.find? name).getD topic.partitions }, b)
  | .create name partitions replicas config =>
    if b.createRaces || b.topics.contains name then (.error (.topicExists name), b)
    else (.ok (), { b with
      topics := b.topics.insert name (.even partitions replicas config)
      mutations := b.mutations + 1 })
  | .addConfig name config =>
    match b.topics.find? name with
    | none => (.error (.topicNotFound name), b)
    | some topic =>
      let (merged, changed) := mergeConfig topic.config config
      (.ok changed, { b with
        topics := b.topics.insert name { topic with config := merged }
        mutations := if changed then b.mutations + 1 else b.mutations })

/-- The answer of a broker to a call, and the broker after it. -/
def serve (b : Broker) (call : BrokerCall) : Except BrokerError call.Reply × Broker :=
  let counted := { b with requests := b.requests + 1 }
  match b.faults b.requests call with
  | some e => (.error e, counted)
  | none => { counted with log := b.log ++ [call] }.act call

theorem topics_serve_topicExists (b : Broker) (name : String) :
    (b.serve (.topicExists name)).2.topics = b.topics := by
  unfold serve
  split <;> rfl

/-- How many of the logged calls asked for a new topic. -/
def createCount (b : Broker) : Nat := b.log.countP BrokerCall.isCreate

def config? (b : Broker) (name : String) : Option TopicConfig :=
  (b.topics.find? name).map Topic.config

def clearLog (b : Broker) : Broker := { b with log := [] }

end Broker

/-! ## Programs -/

/-- A computation that makes calls to a broker, one at a time, and goes on with each answer. The
calls of several programs can be interleaved. -/
inductive BrokerProgram (α : Type)
  | done (result : α)
  | ask (call : BrokerCall) (next : Except BrokerError call.Reply → BrokerProgram α)

namespace BrokerProgram

variable {α β : Type}

/-- The program whose only call is `call`. -/
def call (c : BrokerCall) : BrokerProgram (Except BrokerError c.Reply) := ask c done

/-- The program that goes on with the result of another. -/
def bind : BrokerProgram α → (α → BrokerProgram β) → BrokerProgram β
  | done x, f => f x
  | ask c next, f => ask c fun reply => (next reply).bind f

/-- The program after its next call, and the broker after that call. -/
def advance : BrokerProgram α → Broker → BrokerProgram α × Broker
  | done x, b => (done x, b)
  | ask c next, b => let (reply, b) := b.serve c; (next reply, b)

/-- The result of a program that runs without interruption, and the broker after it. -/
def run : BrokerProgram α → Broker → α × Broker
  | done x, b => (x, b)
  | ask c next, b => (next (b.serve c).1).run (b.serve c).2

theorem run_bind (p : BrokerProgram α) (f : α → BrokerProgram β) (b : Broker) :
    (p.bind f).run b = (f (p.run b).1).run (p.run b).2 := by
  induction p generalizing b with
  | done x => rfl
  | ask c next ih => exact ih _ _

end BrokerProgram

end StandingQuery
