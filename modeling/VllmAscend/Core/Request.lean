import Mathlib.Data.List.Sort
import VllmAscend.Lib.Dict

/-!
# Requests and request queues

What the scheduler forks read and write of a vLLM `Request`, and vLLM's request queues. Python floats are a type
with unconstrained operations, so the results hold for IEEE doubles. Only equality and order of request ids are
used.
-/

namespace VllmAscend.Core

open List

/-! ## Floats -/

class PyFloat (F : Type) where
  ofInt : Int → F
  inf : F
  neg : F → F
  add : F → F → F
  sub : F → F → F
  mul : F → F → F
  div : F → F → F
  lt : F → F → Bool
  beq : F → F → Bool

namespace PyFloat

variable {F : Type} [PyFloat F]

def le (a b : F) : Bool := lt a b || beq a b

def max (a b : F) : F := if lt a b then b else a

def min (a b : F) : F := if lt b a then b else a

/-- Exact arithmetic, to evaluate the model. It has no infinity: the value stands for a bound
that no run here comes near. -/
instance : PyFloat Rat where
  ofInt n := n
  inf := 1000000000
  neg a := -a
  add a b := a + b
  sub a b := a - b
  mul a b := a * b
  div a b := a / b
  lt a b := decide (a < b)
  beq a b := decide (a = b)

end PyFloat

/-! ## Requests -/

abbrev ReqId := Nat

abbrev KVCacheBlocks := List Nat

inductive RequestStatus
  | waiting
  | waitingForStructuredOutputGrammar
  | waitingForRemoteKvs
  | waitingForStreamingReq
  | running
  | preempted
  deriving DecidableEq

inductive SchedulingPolicy
  | fcfs
  | priority
  deriving DecidableEq

structure Request (F : Type) where
  requestId : ReqId
  status : RequestStatus
  priority : Int
  arrivalTime : F
  numPromptTokens : Int
  numTokens : Int
  numOutputTokens : Int
  numComputedTokens : Int
  numOutputPlaceholders : Int
  /-- `none` when the attribute is not a number. -/
  maxTokens : Option Int
  numPreemptions : Int
  specTokenIds : List Nat
  hasEncoderInputs : Bool
  numEncoderEmbeds : Nat → Int
  loraIntId : Option Nat
  hasStructuredOutputRequest : Bool

def Request.numTokensWithSpec {F : Type} (r : Request F) : Int := r.numTokens + r.specTokenIds.length

/-! ## Queues -/

theorem foldl_choose_mem (p : ReqId → ReqId → Bool) (l : List ReqId) (b : ReqId) :
    l.foldl (fun best x => if p best x then x else best) b ∈ b :: l := by
  induction l generalizing b with
  | nil => simp
  | cons y l ih =>
    rw [foldl_cons]
    rcases mem_cons.mp (ih (if p b y then y else b)) with h | h
    · rw [h]
      split <;> simp
    · exact mem_cons_of_mem _ (mem_cons_of_mem _ h)

section Queue

variable {F : Type} [PyFloat F] (requests : ReqId → Request F)

/-- `Request.__lt__`: priority, then arrival time, then id. -/
def requestLt (a b : ReqId) : Bool :=
  if (requests a).priority ≠ (requests b).priority then
    decide ((requests a).priority < (requests b).priority)
  else if !PyFloat.beq (requests a).arrivalTime (requests b).arrivalTime then
    PyFloat.lt (requests a).arrivalTime (requests b).arrivalTime
  else decide (a < b)

def peekRequest (policy : SchedulingPolicy) : List ReqId → Option ReqId
  | [] => none
  | r :: rest =>
    match policy with
    | .fcfs => some r
    | .priority => some (rest.foldl (fun best x => if requestLt requests x best then x else best) r)

/-- `pop_request`, with `none` for the `IndexError` of an empty queue. -/
def popRequest (policy : SchedulingPolicy) (q : List ReqId) : Option (ReqId × List ReqId) :=
  (peekRequest requests policy q).map fun r => (r, q.erase r)

/-- `prepend_request`. A heap has no front; its list is kept in any order. -/
def prependRequest (q : List ReqId) (r : ReqId) : List ReqId := r :: q

def prependRequests (q rs : List ReqId) : List ReqId := rs.foldl prependRequest q

theorem peekRequest_mem {policy : SchedulingPolicy} {q : List ReqId} {r : ReqId}
    (h : peekRequest requests policy q = some r) : r ∈ q := by
  cases q with
  | nil => simp [peekRequest] at h
  | cons x rest =>
    cases policy with
    | fcfs =>
      simp only [peekRequest, Option.some.injEq] at h
      simp [h]
    | priority =>
      simp only [peekRequest, Option.some.injEq] at h
      subst h
      exact foldl_choose_mem (fun best x => requestLt requests x best) rest x

theorem prependRequests_perm (q rs : List ReqId) : (prependRequests q rs).Perm (rs ++ q) := by
  unfold prependRequests
  induction rs generalizing q with
  | nil => simp
  | cons r rs ih => exact (ih (prependRequest q r)).trans perm_middle

end Queue

end VllmAscend.Core
