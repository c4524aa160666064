import DstTestNode.Library.LittleEndian
import DstTestNode.Library.Machine

namespace go_test_node.main

abbrev Payload : Type := List UInt8

/-- The run-time panics of the modelled code. -/
inductive Panic where
  | divide_by_zero
  | makeslice_len_out_of_range
  | index_out_of_range
  deriving DecidableEq, Repr

/-- The largest allocation of a 64-bit process. -/
def max_alloc : Int := 2 ^ 48

def int_div (dividend divisor : Int) : Except Panic Int :=
  if divisor = 0 then .error .divide_by_zero else .ok (dividend.tdiv divisor)

/-- `make([]byte, length)`. Running out of memory is outside the model, and so is
the check of `append`, which counts the eight bytes of the header as well. -/
def make_bytes (length : Int) : Except Panic Payload :=
  if length < 0 ∨ max_alloc < length then .error .makeslice_len_out_of_range
  else .ok (List.replicate length.toNat 0)

/-- `bytes[index] = byte`. -/
def set_byte (bytes : Payload) (index : Nat) (byte : UInt8) : Except Panic Payload :=
  if index < bytes.length then .ok (bytes.set index byte) else .error .index_out_of_range

/-- The payload with its timestamp header, before any fragment number. -/
def new_payload (msg_size chunks now_nanos : Int) : Except Panic Payload := do
  let now_bytes := LittleEndian.signedBytes 8 now_nanos
  let length ← int_div msg_size chunks
  let rest ← make_bytes length
  .ok (now_bytes ++ rest)

/-- A slice is the number of the array behind it. -/
abbrev Slice : Type := Nat

/-- One call of `publishNewMessage` and the writer of the outgoing queue, which
share the arrays behind the queued slices. A call that has returned or panicked
has a result. -/
structure Publisher where
  memory : Slice → Payload
  payload : Slice
  iterations : Nat
  result : Option (Except Panic (Option String))
  messages_published : Nat
  queue : List Slice
  wire : List Payload

/-- One iteration of the loop, with the outcome of its `topic.Publish`; or the
writer serialises the message at the head of the queue. -/
inductive PublishEvent where
  | iterate (err : Option String)
  | serialise
  deriving DecidableEq, Repr

namespace Publisher

/-- The call before its first iteration. -/
def start (allocated : Except Panic Payload) : Publisher where
  memory := fun _ => allocated.toOption.getD []
  payload := 0
  iterations := 0
  result := match allocated with
    | .ok _ => none
    | .error panic => some (.error panic)
  messages_published := 0
  queue := []
  wire := []

def ready (chunks : Int) (self : Publisher) : PublishEvent → Prop
  | .iterate _ => self.result = none ∧ (self.iterations : Int) < chunks
  | .serialise => self.queue ≠ []

def iterate (self : Publisher) (err : Option String) : Publisher :=
  match set_byte (self.memory self.payload) 10 (UInt8.ofNat self.iterations) with
  | .error panic => { self with result := some (.error panic) }
  | .ok bytes =>
    let self := { self with
      memory := Function.update self.memory self.payload bytes
      iterations := self.iterations + 1 }
    match err with
    | some err => { self with result := some (.ok (some err)) }
    | none =>
      { self with
        queue := self.queue ++ [self.payload]
        messages_published := self.messages_published + 1 }

def serialise (self : Publisher) : Publisher :=
  match self.queue with
  | [] => self
  | slice :: queue => { self with queue := queue, wire := self.wire ++ [self.memory slice] }

def next (self : Publisher) : PublishEvent → Publisher
  | .iterate err => self.iterate err
  | .serialise => self.serialise

end Publisher

/-- The loop over the fragments interleaved with the writer in any way. -/
def publish_new_message (msg_size chunks now_nanos : Int) : Machine Publisher PublishEvent where
  initial := .start (new_payload msg_size chunks now_nanos)
  enabled := Publisher.ready chunks
  next := Publisher.next

/-- The payload is a header followed by the zeroed fragment. -/
theorem length_new_payload {msg_size chunks now_nanos : Int} {payload : Payload}
    (hpayload : new_payload msg_size chunks now_nanos = .ok payload) :
    (payload.length : Int) = 8 + msg_size.tdiv chunks ∧ 0 ≤ msg_size.tdiv chunks := by
  simp only [new_payload, int_div, make_bytes, bind, Except.bind] at hpayload
  split at hpayload
  · cases hpayload
  · next length hlength =>
    split at hpayload
    · cases hpayload
    · next rest hrest =>
      split at hlength
      · cases hlength
      · cases hlength
        split at hrest
        · cases hrest
        · next hfits =>
          cases hrest
          cases hpayload
          simp only [List.length_append, LittleEndian.signedBytes_length, List.length_replicate]
          omega

@[simp] theorem set_byte_of_lt {bytes : Payload} {index : Nat} (hindex : index < bytes.length)
    (byte : UInt8) : set_byte bytes index byte = .ok (bytes.set index byte) := if_pos hindex

end go_test_node.main
