import DstTestNode.Nim.MessageHandler

open nim

namespace nim_test_node.gossipsub_queues.main

/-- A line `{msg_id} milliseconds: {milliseconds}` of the standard output, whose
delay also goes to the metrics of completed messages. -/
structure Completion where
  msg_id : Nat
  milliseconds : Int
  deriving DecidableEq, Repr

/-- The handler that `createMessageHandler` returns, with the table it shares
between its calls. -/
def create_message_handler (chunks : Int) (message : Delivery) (messages_chunks : MessagesChunks) :
    Except Defect (MessagesChunks × Option Completion) := do
  let headers ← read_headers message
  if headers.timestamp_ns < 1000000 then .ok (messages_chunks, none)
  else
    let messages_chunks := messages_chunks.inc headers.msg_id
    if messages_chunks.get headers.msg_id < chunks then .ok (messages_chunks, none)
    else
      .ok (messages_chunks,
        some { msg_id := headers.msg_id, milliseconds := headers.delay.in_milliseconds })

/-- The calls of the handler for the messages of a subscription. -/
def handle_all (chunks : Int) (messages_chunks : MessagesChunks) :
    List Delivery → Except Defect (MessagesChunks × List (Option Completion))
  | [] => .ok (messages_chunks, [])
  | message :: messages => do
    let (messages_chunks, completion) ← create_message_handler chunks message messages_chunks
    let (messages_chunks, completions) ← handle_all chunks messages_chunks messages
    .ok (messages_chunks, completion :: completions)

/-- The ids of the completed messages, in the order of their lines. -/
def completed_ids (completions : List (Option Completion)) : List Nat :=
  completions.filterMap fun completion => completion.map Completion.msg_id

/-- The fragments of a message that complete it: the last one that is needed,
and every one after it. -/
def completing (chunks : Int) (fragments : Nat) : Nat := fragments + 1 - max chunks.toNat 1

/-- A payload with both headers is counted unless it is a warm-up one, and
completes its message from the last fragment on. -/
theorem create_message_handler_spec (chunks : Int) {message : Delivery}
    (hformed : WellFormed message.data) {messages_chunks : MessagesChunks} {before : List Nat}
    (hcounts : messages_chunks.Counts before) :
    ∃ next completion,
      create_message_handler chunks message messages_chunks = .ok (next, completion) ∧
      next.Counts (before ++ (counted_id message.data).toList) ∧
      completion = ((counted_id message.data).filter fun msg_id =>
        chunks ≤ ((before ++ [msg_id]).count msg_id : Int)).map fun msg_id =>
          ⟨msg_id, message.delay_ms⟩ := by
  obtain ⟨headers, hheaders, htimestamp, hid, hdelay⟩ := read_headers_eq hformed
  simp only [create_message_handler, hheaders, bind, Except.bind, htimestamp, counted_id]
  by_cases hwarm : LittleEndian.value (message.data.take 8) < 1000000
  · have hwarm' : (LittleEndian.value (message.data.take 8) : Int) < 1000000 := by omega
    rw [if_pos hwarm', if_pos hwarm]
    exact ⟨messages_chunks, none, rfl, by simpa using hcounts, rfl⟩
  · have hwarm' : ¬ (LittleEndian.value (message.data.take 8) : Int) < 1000000 := by omega
    have hnext := hcounts.inc headers.msg_id
    have hmilliseconds : headers.delay.in_milliseconds = message.delay_ms := by
      rw [Time.in_milliseconds_eq, hdelay, Delivery.delay_ms]
    rw [if_neg hwarm', if_neg hwarm, ← hid, Option.toList_some, Option.filter_some,
      ← hnext headers.msg_id, hmilliseconds]
    by_cases hroom : (messages_chunks.inc headers.msg_id).get headers.msg_id < chunks
    · rw [if_pos hroom]
      exact ⟨_, none, rfl, hnext, by simp [Int.not_le.mpr hroom]⟩
    · rw [if_neg hroom]
      exact ⟨_, _, rfl, hnext, by simp [Int.not_lt.mp hroom]⟩

/-- A payload without both headers ends the node. -/
theorem create_message_handler_ok_iff (chunks : Int) (message : Delivery)
    (messages_chunks : MessagesChunks) :
    (∃ result, create_message_handler chunks message messages_chunks = .ok result) ↔
      WellFormed message.data := by
  refine ⟨?_, fun hformed => ?_⟩
  · rintro ⟨result, hresult⟩
    rw [create_message_handler, bind_eq_ok] at hresult
    obtain ⟨headers, hheaders, _⟩ := hresult
    exact read_headers_ok_iff.mp ⟨headers, hheaders⟩
  · obtain ⟨headers, hheaders⟩ := read_headers_ok_iff.mpr hformed
    simp only [create_message_handler, hheaders, bind, Except.bind]
    split_ifs <;> exact ⟨_, rfl⟩

theorem counted_ids_eq (messages : List Delivery) :
    counted_ids messages = (messages.map Delivery.data).filterMap counted_id := by
  rw [counted_ids, List.filterMap_map]
  rfl

theorem counted_ids_append (messages others : List Delivery) :
    counted_ids (messages ++ others) = counted_ids messages ++ counted_ids others :=
  List.filterMap_append

theorem counted_ids_singleton (message : Delivery) :
    counted_ids [message] = (counted_id message.data).toList := by
  cases hid : counted_id message.data <;> simp [counted_ids, hid]

/-- The completions of an id after one more delivery. -/
theorem completing_count {chunks : Int} {message : Delivery} {completion : Option Completion}
    {before : List Nat} (hcompletion : completion = ((counted_id message.data).filter fun msg_id =>
      chunks ≤ ((before ++ [msg_id]).count msg_id : Int)).map fun msg_id =>
        ⟨msg_id, message.delay_ms⟩) (msg_id : Nat) :
    completing chunks (before.count msg_id) +
        (completion.map Completion.msg_id).toList.count msg_id =
      completing chunks ((before ++ (counted_id message.data).toList).count msg_id) := by
  rw [hcompletion]
  cases counted_id message.data with
  | none => simp
  | some counted =>
    by_cases hsame : counted = msg_id
    · subst hsame
      simp only [Option.filter_some, Option.toList_some, List.count_append, decide_eq_true_eq,
        List.count_singleton_self, completing]
      split_ifs with hreached
      · simp only [Option.map_some, Option.toList_some, List.count_singleton_self]
        omega
      · simp only [Option.map_none, Option.toList_none, List.count_nil]
        omega
    · have hother : List.count msg_id [counted] = 0 := by simp [hsame]
      simp only [Option.filter_some, Option.toList_some, List.count_append, hother]
      split_ifs <;> simp [hsame]

/-- What the handler does with payloads that have both headers: the table holds
the occurrences of every id, and a delivery completes its message exactly when
as many fragments of it as there are chunks have been counted. -/
theorem handle_all_spec (chunks : Int) (messages : List Delivery)
    (hformed : ∀ message ∈ messages, WellFormed message.data) {messages_chunks : MessagesChunks}
    {before : List Nat} (hcounts : messages_chunks.Counts before) :
    ∃ next completions, handle_all chunks messages_chunks messages = .ok (next, completions) ∧
      next.Counts (before ++ counted_ids messages) ∧ completions.length = messages.length ∧
      (∀ k (hk : k < messages.length), completions[k]?.join =
        ((counted_id messages[k].data).filter fun msg_id =>
          chunks ≤ ((before ++ counted_ids (messages.take (k + 1))).count msg_id : Int)).map
            fun msg_id => ⟨msg_id, messages[k].delay_ms⟩) ∧
      ∀ msg_id, completing chunks (before.count msg_id) + (completed_ids completions).count msg_id =
        completing chunks ((before ++ counted_ids messages).count msg_id) := by
  induction messages generalizing messages_chunks before with
  | nil =>
    exact ⟨messages_chunks, [], rfl, by simpa [counted_ids] using hcounts, rfl, by simp,
      by simp [counted_ids, completed_ids]⟩
  | cons message messages ih =>
    obtain ⟨hfirst, hrest⟩ := List.forall_mem_cons.mp hformed
    obtain ⟨mid, completion, hstep, hmid, hcompletion⟩ :=
      create_message_handler_spec chunks hfirst hcounts
    obtain ⟨next, completions, hrun, hnext, hlength, hcompletions, htotals⟩ := ih hrest hmid
    have hsplit (tail : List Delivery) : before ++ counted_ids (message :: tail) =
        before ++ (counted_id message.data).toList ++ counted_ids tail := by
      rw [← List.singleton_append, counted_ids_append, counted_ids_singleton, List.append_assoc]
    refine ⟨next, completion :: completions, ?_, by rwa [hsplit], by simp [hlength], ?_, ?_⟩
    · simp only [handle_all, hstep, hrun, bind, Except.bind]
    · intro k hk
      cases k with
      | zero =>
        rw [List.getElem?_cons_zero, Option.join_some, hcompletion, List.take_succ_cons, hsplit]
        cases hid : counted_id message.data with
        | none => simp [hid]
        | some msg_id => simp [hid, counted_ids, Option.filter_some]
      | succ k =>
        rw [List.take_succ_cons, hsplit]
        simpa using hcompletions k (by simpa using hk)
    · intro msg_id
      have hcons : (completed_ids (completion :: completions)).count msg_id =
          (completion.map Completion.msg_id).toList.count msg_id +
            (completed_ids completions).count msg_id := by
        cases completion <;> simp [completed_ids, List.count_cons, Nat.add_comm]
      rw [hcons, hsplit, ← htotals msg_id, ← completing_count hcompletion msg_id, Nat.add_assoc]

/-- The handler gets through a sequence exactly when all payloads have both
headers. -/
theorem handle_all_ok_iff (chunks : Int) (messages_chunks : MessagesChunks)
    (messages : List Delivery) :
    (∃ result, handle_all chunks messages_chunks messages = .ok result) ↔
      ∀ message ∈ messages, WellFormed message.data := by
  induction messages generalizing messages_chunks with
  | nil => exact iff_of_true ⟨_, rfl⟩ (by simp)
  | cons message messages ih =>
    rw [List.forall_mem_cons, ← create_message_handler_ok_iff chunks message messages_chunks]
    simp only [handle_all, bind_eq_ok, Except.ok.injEq]
    constructor
    · rintro ⟨_, step, hstep, rest, hrest, _⟩
      exact ⟨⟨step, hstep⟩, (ih step.1).mp ⟨rest, hrest⟩⟩
    · rintro ⟨⟨step, hstep⟩, hformed⟩
      obtain ⟨rest, hrest⟩ := (ih step.1).mpr hformed
      exact ⟨_, step, hstep, rest, hrest, rfl⟩

/-- Exact accounting of the handler on any sequence of payloads: it gets through
exactly when all of them have both headers, the table counts every fragment and
forgets none, and a message is completed by the last fragment that is needed and
again by every fragment after it. -/
theorem handle_all_exact (chunks : Int) (messages : List Delivery) :
    ((∃ result, handle_all chunks ∅ messages = .ok result) ↔
      ∀ message ∈ messages, WellFormed message.data) ∧
    ∀ messages_chunks completions, handle_all chunks ∅ messages = .ok (messages_chunks, completions) →
      completions.length = messages.length ∧
      (∀ k (hk : k < messages.length), completions[k]?.join =
        ((counted_id messages[k].data).filter fun msg_id =>
          chunks ≤ ((counted_ids (messages.take (k + 1))).count msg_id : Int)).map
            fun msg_id => ⟨msg_id, messages[k].delay_ms⟩) ∧
      ∀ msg_id, messages_chunks.get msg_id = (counted_ids messages).count msg_id ∧
        (completed_ids completions).count msg_id =
          completing chunks ((counted_ids messages).count msg_id) := by
  refine ⟨handle_all_ok_iff chunks ∅ messages, fun messages_chunks completions hrun => ?_⟩
  have hformed := (handle_all_ok_iff chunks ∅ messages).mp ⟨_, hrun⟩
  obtain ⟨next, others, hspec, hcounts, hlength, hcompletions, htotals⟩ :=
    handle_all_spec chunks messages hformed MessagesChunks.counts_empty
  obtain ⟨rfl, rfl⟩ := Prod.mk.inj (Except.ok.inj (hspec.symm.trans hrun))
  refine ⟨hlength, by simpa using hcompletions, fun msg_id => ⟨by simpa using hcounts msg_id, ?_⟩⟩
  have htotal := htotals msg_id
  have hzero : completing chunks 0 = 0 := by simp [completing]
  rwa [List.count_nil, hzero, Nat.zero_add, List.nil_append] at htotal

end nim_test_node.gossipsub_queues.main
