import DstTestNode.Rust.Publish

open rust

namespace rust_test_node.main

theorem header_buffer_length {cmd : PublishCommand} (now : Utc) (hheader : cmd.HasHeader) :
    (header_buffer cmd now).length = cmd.fragment_length := by
  have hlen := hheader.2.1
  simp only [header_buffer, List.length_append, LittleEndian.signedBytes_length,
    List.length_replicate]
  omega

@[simp] theorem fragment_length_eq {cmd : PublishCommand} (now : Utc) (hheader : cmd.HasHeader)
    (chunk : Nat) : (fragment cmd now chunk).length = cmd.fragment_length := by
  rw [fragment, mark_fragment_length, header_buffer_length now hheader]

/-- The fragment number never reaches the header. -/
theorem fragment_take_header (cmd : PublishCommand) (now : Utc) (chunk : Nat) :
    (fragment cmd now chunk).take 8 = LittleEndian.signedBytes 8 now.unix_nano := by
  have hheader : (header_buffer cmd now).take 8 = LittleEndian.signedBytes 8 now.unix_nano := by
    simp [header_buffer]
  unfold fragment mark_fragment
  split
  · rw [List.take_set_of_le (by omega), hheader]
  · exact hheader

/-- A receiver decodes the publishing time from every fragment. -/
theorem fragment_time (cmd : PublishCommand) (now : Utc) (chunk : Nat) :
    read_i64 ((fragment cmd now chunk).take 8) = some (now.unix_nano : Int) := by
  have hlt := now.unix_nano_lt
  rw [fragment_take_header, read_i64, LittleEndian.signedBytes_length, if_pos le_rfl]
  rw [List.take_of_length_le (by simp), LittleEndian.signed_signedBytes_of_nonneg (by omega)]
  norm_num
  omega

/-- The publishing time of a command other than a warm-up one is counted. -/
theorem fragment_counted_time (cmd : PublishCommand) {now : Utc} (hmin : 1000000 ≤ now.unix_nano)
    (chunk : Nat) : counted_time (fragment cmd now chunk) = some (now.unix_nano : Int) := by
  rw [counted_time, fragment_time, Option.filter_some, if_pos (by simpa using hmin)]

/-- In a buffer that reaches the fragment number, the number is readable. -/
theorem fragment_number {cmd : PublishCommand} (now : Utc) (hheader : cmd.HasHeader)
    (hlong : 10 < cmd.fragment_length) (chunk : Nat) :
    (fragment cmd now chunk)[10]? = some (UInt8.ofNat chunk) := by
  have hlen := header_buffer_length now hheader
  rw [fragment, mark_fragment, if_pos (by omega)]
  simp [hlen, hlong]

/-- Fragment numbers are one byte: equal bytes give equal payloads. -/
theorem fragment_eq_of_byte_eq (cmd : PublishCommand) (now : Utc) {first second : Nat}
    (hbyte : UInt8.ofNat first = UInt8.ofNat second) :
    fragment cmd now first = fragment cmd now second := by
  simp [fragment, mark_fragment, hbyte]

/-- A buffer too short for the fragment number is the same for all fragments. -/
theorem fragment_eq_of_short {cmd : PublishCommand} (now : Utc) (hheader : cmd.HasHeader)
    (hshort : cmd.fragment_length ≤ 10) (first second : Nat) :
    fragment cmd now first = fragment cmd now second := by
  have hlen := header_buffer_length now hheader
  simp [fragment, mark_fragment, hlen, Nat.not_lt.mpr hshort]

/-- A publish command together with the build of its publisher, the clock
reading it makes, and the outcomes of its `gossipsub.publish` calls. -/
structure PublishRun where
  profile : Profile
  cmd : PublishCommand
  now : Utc
  outcome : Outcomes

namespace PublishRun

/-- The payloads the command hands to `gossipsub.publish`. -/
def payloads (self : PublishRun) : List Payload :=
  (publish_new_message self.profile self.cmd self.now self.outcome).payloads

/-- Every `gossipsub.publish` call of the command succeeds. -/
def Accepted (self : PublishRun) : Prop :=
  self.outcome.Accepts 0 self.cmd.chunks.toNat

theorem payloads_eq_nil (self : PublishRun) (hheader : ¬ self.cmd.HasHeader) :
    self.payloads = [] := by
  simp only [payloads, publish_new_message, new_buffer_eq, if_neg hheader]
  split_ifs <;> rfl

theorem payloads_eq_loop (self : PublishRun) (hheader : self.cmd.HasHeader) :
    self.payloads = (publish_fragments self.profile self.outcome (header_buffer self.cmd self.now)
      0 self.cmd.chunks.toNat 0).1 := by
  simp only [payloads, publish_new_message, new_buffer_eq, if_pos hheader]

/-- Whatever the outcomes, the payloads handed over are the first fragments. -/
theorem payloads_isPrefix (self : PublishRun) :
    self.payloads <+: (List.range self.cmd.chunks.toNat).map (fragment self.cmd self.now) := by
  by_cases hheader : self.cmd.HasHeader
  · rw [self.payloads_eq_loop hheader, List.range_eq_range']
    exact publish_fragments_isPrefix _ _ _ _ _ _
  · rw [self.payloads_eq_nil hheader]
    exact List.nil_prefix

/-- Every payload handed over is one of the numbered fragments, of a command
whose buffer holds the header. -/
theorem mem_payloads {self : PublishRun} {data : Payload} (hdata : data ∈ self.payloads) :
    self.cmd.HasHeader ∧ ∃ chunk < self.cmd.chunks.toNat, data = fragment self.cmd self.now chunk := by
  refine ⟨?_, ?_⟩
  · by_contra hheader
    rw [self.payloads_eq_nil hheader] at hdata
    cases hdata
  · obtain ⟨chunk, hchunk, heq⟩ := List.mem_map.mp (self.payloads_isPrefix.subset hdata)
    exact ⟨chunk, List.mem_range.mp hchunk, heq.symm⟩

/-- When every call succeeds, there is a payload for each chunk, at least until
the counter of accepted fragments overflows. -/
theorem le_payloads_length {self : PublishRun} (hheader : self.cmd.HasHeader)
    (haccepted : self.Accepted) :
    min self.cmd.chunks.toNat (i32_max + 1) ≤ self.payloads.length := by
  rw [self.payloads_eq_loop hheader]
  exact publish_fragments_length _ _ _ 0 _ _ (Nat.zero_le _) haccepted

theorem payloads_length_le (self : PublishRun) :
    self.payloads.length ≤ self.cmd.chunks.toNat := by
  have hle := self.payloads_isPrefix.length_le
  rwa [List.length_map, List.length_range] at hle

/-- When every call succeeds, the payloads are all the fragments. -/
theorem payloads_eq {self : PublishRun} (hheader : self.cmd.HasHeader)
    (haccepted : self.Accepted) (hchunks : self.cmd.chunks.toNat ≤ i32_max + 1) :
    self.payloads = (List.range self.cmd.chunks.toNat).map (fragment self.cmd self.now) := by
  apply self.payloads_isPrefix.eq_of_length_le
  have hlength := le_payloads_length hheader haccepted
  rwa [List.length_map, List.length_range, ← min_eq_left hchunks]

/-- When every call succeeds and nothing panics, the payloads are all the
fragments, however many there are. -/
theorem payloads_eq_of_publishable {self : PublishRun}
    (hpublishable : self.cmd.Publishable self.profile self.outcome) (haccepted : self.Accepted) :
    self.payloads = (List.range self.cmd.chunks.toNat).map (fragment self.cmd self.now) := by
  obtain ⟨hheader, hoverflow⟩ := hpublishable
  cases hprofile : self.profile with
  | debug =>
    apply payloads_eq hheader haccepted
    by_contra hmany
    refine hoverflow ⟨hprofile, by omega, fun k hlow hhigh => haccepted k hlow (by omega)⟩
  | release =>
    apply self.payloads_isPrefix.eq_of_length_le
    rw [self.payloads_eq_loop hheader, hprofile,
      (publish_fragments_release _ _ _ _ _).2 haccepted, List.length_map, List.length_range]

end PublishRun

end rust_test_node.main
