import DstTestNode.Rust.Handler

open rust

namespace rust_test_node.main

/-- The command that the HTTP task sends to the swarm task. The sender half of
the reply channel is its number. -/
structure PublishCommand where
  topic : String
  msg_size : UInt64
  chunks : UInt32
  response_tx : Nat

/-- The outcome of each `gossipsub.publish` call of one command, by fragment: a
message id, or the debug text of the error. -/
abbrev Outcomes : Type := Nat → Except String String

/-- What a publish command did: the payloads it handed to `gossipsub.publish`
on the topic, in order, and its answer unless it panicked. -/
structure PublishTrace where
  topic : String
  payloads : List Payload
  response : Except Panic (Except String String)

/-- The message id of a payload, for the hash of the standard library. -/
def msg_id_provider (hash : Payload → UInt64) (data : Payload) : String :=
  toString (hash data).toNat

/-- The buffer with its timestamp header, before any fragment number. -/
def new_buffer (cmd : PublishCommand) (now : Utc) : Except Panic Payload := do
  let length ← usize_div cmd.msg_size.toNat cmd.chunks.toNat
  let buffer ← vec_zeroed length
  let cursor ← slice_to buffer 8
  .ok (LittleEndian.signedBytes cursor.length now.unix_nano ++ buffer.drop cursor.length)

/-- Write the fragment number into the buffer, if the buffer reaches that far. -/
def mark_fragment (buffer : Payload) (chunk : Nat) : Payload :=
  if buffer.length > 10 then buffer.set 10 (UInt8.ofNat chunk) else buffer

/-- The loop over the fragments, from number `chunk` on with `remaining` to go:
the payloads handed over, and the number of accepted ones with the error of the
one that stopped the loop. -/
def publish_fragments (profile : Profile) (outcome : Outcomes) (buffer : Payload) (res : Int) :
    (remaining chunk : Nat) → List Payload × Except Panic (Int × Option String)
  | 0, _ => ([], .ok (res, none))
  | remaining + 1, chunk =>
    let buffer := mark_fragment buffer chunk
    match outcome chunk with
    | .ok _ =>
      match i32_add profile res 1 with
      | .error panic => ([buffer], .error panic)
      | .ok res =>
        let (payloads, result) := publish_fragments profile outcome buffer res remaining (chunk + 1)
        (buffer :: payloads, result)
    | .error e => ([buffer], .ok (res, some ("Failed to publish: " ++ e)))

/-- The answer sent back to the HTTP handler. -/
def publish_response (now : Utc) (res : Int) (publish_error : Option String) :
    Except String String :=
  match publish_error with
  | some error => .error error
  | none =>
    if res > 0 then .ok ("Message published at time " ++ now.display)
    else .error "No fragments published"

def publish_new_message (profile : Profile) (cmd : PublishCommand) (now : Utc)
    (outcome : Outcomes) : PublishTrace :=
  match new_buffer cmd now with
  | .error panic => { topic := cmd.topic, payloads := [], response := .error panic }
  | .ok buffer =>
    let (payloads, result) := publish_fragments profile outcome buffer 0 cmd.chunks.toNat 0
    { topic := cmd.topic
      payloads := payloads
      response := result.map fun (res, publish_error) => publish_response now res publish_error }

/-- The length of every fragment of a command. -/
def PublishCommand.fragment_length (cmd : PublishCommand) : Nat :=
  cmd.msg_size.toNat / cmd.chunks.toNat

/-- A command whose buffer can be allocated and holds the header. -/
def PublishCommand.HasHeader (cmd : PublishCommand) : Prop :=
  0 < cmd.chunks.toNat ∧ 8 ≤ cmd.fragment_length ∧ cmd.fragment_length ≤ isize_max

/-- The buffer of a command published at a given time. -/
def header_buffer (cmd : PublishCommand) (now : Utc) : Payload :=
  LittleEndian.signedBytes 8 now.unix_nano ++ List.replicate (cmd.fragment_length - 8) 0

/-- The payload of one fragment. -/
def fragment (cmd : PublishCommand) (now : Utc) (chunk : Nat) : Payload :=
  mark_fragment (header_buffer cmd now) chunk

instance (cmd : PublishCommand) : Decidable cmd.HasHeader :=
  inferInstanceAs (Decidable (_ ∧ _ ∧ _))

/-- The buffer is built exactly when it can be allocated and holds the header. -/
theorem new_buffer_eq (cmd : PublishCommand) (now : Utc) :
    new_buffer cmd now = if cmd.HasHeader then .ok (header_buffer cmd now)
      else if cmd.chunks.toNat = 0 then .error .divide_by_zero
      else if isize_max < cmd.fragment_length then .error .capacity_overflow
      else .error .slice_end_index := by
  by_cases hzero : cmd.chunks.toNat = 0
  · simp [new_buffer, usize_div, hzero, PublishCommand.HasHeader, bind, Except.bind]
  · by_cases hfits : cmd.fragment_length ≤ isize_max
    · by_cases hheader : 8 ≤ cmd.fragment_length
      · have hhas : cmd.HasHeader := ⟨by omega, hheader, hfits⟩
        simp only [PublishCommand.fragment_length] at hheader hfits
        simp [new_buffer, usize_div_of_pos (Nat.pos_of_ne_zero hzero), vec_zeroed_of_le hfits,
          hheader, hhas, header_buffer, PublishCommand.fragment_length, bind, Except.bind]
      · have hhas : ¬ cmd.HasHeader := fun h => hheader h.2.1
        simp only [PublishCommand.fragment_length] at hheader hfits
        simp [new_buffer, usize_div_of_pos (Nat.pos_of_ne_zero hzero), vec_zeroed_of_le hfits,
          hheader, hhas, hzero, slice_to, PublishCommand.fragment_length, Nat.not_lt.mpr hfits,
          bind, Except.bind]
    · have hhas : ¬ cmd.HasHeader := fun h => hfits h.2.2
      simp only [PublishCommand.fragment_length] at hfits
      simp [new_buffer, usize_div_of_pos (Nat.pos_of_ne_zero hzero), vec_zeroed, hfits, hhas, hzero,
        PublishCommand.fragment_length, Nat.lt_of_not_le hfits, bind, Except.bind]

@[simp] theorem mark_fragment_length (buffer : Payload) (chunk : Nat) :
    (mark_fragment buffer chunk).length = buffer.length := by
  unfold mark_fragment
  split <;> simp

/-- Marking a buffer again only replaces the fragment number. -/
@[simp] theorem mark_fragment_mark (buffer : Payload) (first second : Nat) :
    mark_fragment (mark_fragment buffer first) second = mark_fragment buffer second := by
  by_cases hlong : buffer.length > 10 <;> simp [mark_fragment, hlong]

/-- The payloads handed over are the marked buffers of the first fragments. -/
theorem publish_fragments_isPrefix (profile : Profile) (outcome : Outcomes) (buffer : Payload)
    (res : Int) (remaining chunk : Nat) :
    (publish_fragments profile outcome buffer res remaining chunk).1 <+:
      (List.range' chunk remaining).map (mark_fragment buffer) := by
  induction remaining generalizing buffer res chunk with
  | zero => simp [publish_fragments]
  | succ remaining ih =>
    simp only [publish_fragments, List.range'_succ, List.map_cons]
    cases outcome chunk with
    | error e => simp
    | ok id =>
      cases i32_add profile res 1 with
      | error panic => simp
      | ok res =>
        have hmark : mark_fragment (mark_fragment buffer chunk) = mark_fragment buffer :=
          funext (mark_fragment_mark buffer chunk)
        have htail := ih (mark_fragment buffer chunk) res (chunk + 1)
        rw [hmark] at htail
        simpa using htail

/-- Every fragment in a range of numbers was accepted. -/
def Outcomes.Accepts (outcome : Outcomes) (chunk count : Nat) : Prop :=
  ∀ k, chunk ≤ k → k < chunk + count → ∃ id, outcome k = .ok id

theorem Outcomes.Accepts.tail {outcome : Outcomes} {chunk count : Nat}
    (haccepts : outcome.Accepts chunk (count + 1)) : outcome.Accepts (chunk + 1) count :=
  fun k hlow hhigh => haccepts k (by omega) (by omega)

/-- A release build completes the loop, and hands over all the fragments when
everything is accepted. -/
theorem publish_fragments_release (outcome : Outcomes) (buffer : Payload) (res : Int)
    (remaining chunk : Nat) :
    (∃ value, (publish_fragments .release outcome buffer res remaining chunk).2 = .ok value) ∧
      (outcome.Accepts chunk remaining →
        (publish_fragments .release outcome buffer res remaining chunk).1.length = remaining) := by
  induction remaining generalizing buffer res chunk with
  | zero => exact ⟨⟨_, rfl⟩, fun _ => rfl⟩
  | succ remaining ih =>
    obtain ⟨sum, hsum⟩ := i32_add_release res 1
    simp only [publish_fragments]
    cases houtcome : outcome chunk with
    | error e =>
      refine ⟨⟨_, rfl⟩, fun haccepts => ?_⟩
      obtain ⟨id, hid⟩ := haccepts chunk le_rfl (by omega)
      rw [hid] at houtcome
      cases houtcome
    | ok id =>
      obtain ⟨hcompletes, hlength⟩ := ih (mark_fragment buffer chunk) sum (chunk + 1)
      simp only [hsum, List.length_cons]
      exact ⟨hcompletes, fun haccepts => by rw [hlength haccepts.tail]⟩

/-- When everything is accepted, only the counter of accepted fragments, an
`i32`, can stop the loop. -/
theorem publish_fragments_length (profile : Profile) (outcome : Outcomes) (buffer : Payload)
    (res remaining chunk : Nat) (hres : res ≤ i32_max) (haccepts : outcome.Accepts chunk remaining) :
    min remaining (i32_max + 1 - res) ≤
      (publish_fragments profile outcome buffer res remaining chunk).1.length := by
  cases profile with
  | release =>
    rw [(publish_fragments_release outcome buffer res remaining chunk).2 haccepts]
    exact min_le_left _ _
  | debug =>
    induction remaining generalizing buffer res chunk with
    | zero => simp
    | succ remaining ih =>
      obtain ⟨id, hid⟩ := haccepts chunk le_rfl (by omega)
      simp only [publish_fragments, hid]
      rcases Nat.lt_or_eq_of_le hres with hroom | hfull
      · have hrest := ih (mark_fragment buffer chunk) (res + 1) (chunk + 1) hroom haccepts.tail
        simp only [i32_add_one .debug hroom, List.length_cons]
        omega
      · subst hfull
        simp only [i32_add_max, List.length_singleton]
        omega

/-- The loop panics exactly when the counter of accepted fragments overflows in
a debug build. -/
theorem publish_fragments_panics_iff (profile : Profile) (outcome : Outcomes) (buffer : Payload)
    (res remaining chunk : Nat) (hres : res ≤ i32_max) :
    (∃ panic, (publish_fragments profile outcome buffer res remaining chunk).2 = .error panic) ↔
      profile = .debug ∧ i32_max + 1 - res ≤ remaining ∧
        outcome.Accepts chunk (i32_max + 1 - res) := by
  cases profile with
  | release =>
    obtain ⟨⟨value, hvalue⟩, _⟩ := publish_fragments_release outcome buffer res remaining chunk
    simp [hvalue]
  | debug =>
    simp only [true_and]
    induction remaining generalizing buffer res chunk with
    | zero =>
      simp only [publish_fragments, reduceCtorEq, exists_false, false_iff, not_and]
      omega
    | succ remaining ih =>
      simp only [publish_fragments]
      cases houtcome : outcome chunk with
      | error e =>
        simp only [reduceCtorEq, exists_false, false_iff, not_and]
        intro _ haccepts
        obtain ⟨id, hid⟩ := haccepts chunk le_rfl (by omega)
        rw [hid] at houtcome
        cases houtcome
      | ok id =>
        rcases Nat.lt_or_eq_of_le hres with hroom | hfull
        · have hcount : i32_max + 1 - res = i32_max + 1 - (res + 1) + 1 := by omega
          simp only [i32_add_one .debug hroom]
          rw [ih _ _ _ hroom, hcount]
          constructor
          · rintro ⟨hlong, haccepts⟩
            refine ⟨by omega, fun k hlow hhigh => ?_⟩
            by_cases hfirst : k = chunk
            · exact ⟨id, hfirst ▸ houtcome⟩
            · exact haccepts k (by omega) (by omega)
          · rintro ⟨hlong, haccepts⟩
            exact ⟨by omega, haccepts.tail⟩
        · subst hfull
          have hcount : i32_max + 1 - i32_max = 1 := by omega
          simp only [i32_add_max, hcount, Except.error.injEq, exists_eq', true_iff]
          refine ⟨by omega, fun k hlow hhigh => ?_⟩
          have hfirst : k = chunk := by omega
          exact ⟨id, hfirst ▸ houtcome⟩

/-- The counter of accepted fragments overflows before the loop ends, in a
debug build. -/
def PublishCommand.Overflows (profile : Profile) (cmd : PublishCommand) (outcome : Outcomes) :
    Prop :=
  profile = .debug ∧ i32_max < cmd.chunks.toNat ∧ outcome.Accepts 0 (i32_max + 1)

/-- A command that the publisher can carry out: its buffer can be built, and
the counter of accepted fragments does not overflow. -/
def PublishCommand.Publishable (profile : Profile) (cmd : PublishCommand) (outcome : Outcomes) :
    Prop :=
  cmd.HasHeader ∧ ¬ cmd.Overflows profile outcome

/-- The publisher answers exactly the commands it can carry out, and panics on
all others. -/
theorem publish_new_message_answers_iff (profile : Profile) (cmd : PublishCommand) (now : Utc)
    (outcome : Outcomes) :
    (∃ answer, (publish_new_message profile cmd now outcome).response = .ok answer) ↔
      cmd.Publishable profile outcome := by
  simp only [publish_new_message, new_buffer_eq, PublishCommand.Publishable,
    PublishCommand.Overflows]
  by_cases hheader : cmd.HasHeader
  · have hpanics := publish_fragments_panics_iff profile outcome (header_buffer cmd now) 0
      cmd.chunks.toNat 0 (Nat.zero_le _)
    rw [Nat.sub_zero, Nat.succ_le_iff] at hpanics
    simp only [hheader, if_true, true_and]
    rw [← hpanics]
    cases (publish_fragments profile outcome (header_buffer cmd now) 0 cmd.chunks.toNat 0).2 with
    | error panic => simp [Except.map]
    | ok value => simp [Except.map]
  · simp only [hheader, if_false, false_and, iff_false, not_exists]
    intro answer
    split_ifs <;> simp

end rust_test_node.main
