import DstTestNode.Library.Json
import DstTestNode.Nim.GossipsubPublish

open Json

namespace nim_test_node.regression.node.main

open gossipsub_queues.main

/-- A call of the publisher of this node, which counts nothing. -/
def publish_new_message (call : PublishCall) : List Payload × Except Defect Int :=
  match new_buffer call with
  | .error defect => ([], .error defect)
  | .ok now_bytes => publish_fragments call.outcome now_bytes 0 call.chunks.toNat 0

def publish_response : String → Int → HttpResponse :=
  gossipsub_queues.main.publish_response

/-- The handler of the endpoint, with the payloads it hands over. -/
def process_requests (chunks : Int) (req : HttpRequest) (now_int msg_id : Nat)
    (publish_time : String) (outcome : Nat → Int) : List Payload × Except Defect HttpResponse :=
  match req.meth with
  | .post =>
    if req.path = "/publish" then
      match req.body with
      | .error msg =>
        ([], .ok (json_response 400 ("\x7b\"status\":\"error\",\"message\":\"" ++
          escape_quotes msg ++ "\"\x7d")))
      | .ok body =>
        let (payloads, result) := publish_new_message
          { topic := body.topic, msg_size := body.msg_size, chunks := chunks
            now_int := now_int, msg_id := msg_id, outcome := outcome }
        (payloads, result.map (publish_response publish_time))
    else ([], .ok { status := 404, body := "Not Found", content_type := none })
  | .other => ([], .ok { status := 405, body := "Method Not Supported", content_type := none })

end nim_test_node.regression.node.main

namespace nim_test_node

open gossipsub_queues.main (HttpResponse escape_quotes json_response publish_response)

/-- What comes of a request to publish. -/
inductive PublishOutcome where
  | success
  | failed
  | raised (msg : String)

namespace PublishOutcome

def status : PublishOutcome → String
  | success => "success"
  | failed => "error"
  | raised _ => "error"

/-- The message of an answer, with the time of a publish. -/
def message (publish_time : String) : PublishOutcome → String
  | success => "Message published at time " ++ publish_time
  | failed => "Failed to publist at time " ++ publish_time
  | raised msg => msg

def of_result (publish_result : Int) : PublishOutcome :=
  if publish_result > 0 then success else failed

/-- The answer that both nodes give. -/
def answer (publish_time : String) : PublishOutcome → HttpResponse
  | success => publish_response publish_time 1
  | failed => publish_response publish_time 0
  | raised msg => json_response 400 ("\x7b\"status\":\"error\",\"message\":\"" ++
      escape_quotes msg ++ "\"\x7d")

end PublishOutcome

/-- A body that is a JSON object with a status and a message. -/
def Carries (body status message : String) : Prop :=
  ∃ members, Decodes body.toList (.object members) ∧
    member "status".toList members = some (.string status.toList) ∧
    member "message".toList members = some (.string message.toList)

/-- The characters of a printed time. -/
def printed (c : Char) : Bool :=
  c.isAlphanum || c = '-' || c = ':' || c = '.' || c = '+'

/-- `msg.replace("\"", "\\\"")` on characters. -/
def escape (msg : List Char) : List Char :=
  msg.flatMap fun c => if c = '"' then ['\\', '"'] else [c]

theorem escape_cons (c : Char) (msg : List Char) :
    escape (c :: msg) = (if c = '"' then ['\\', '"'] else [c]) ++ escape msg := rfl

theorem length_escape (msg : List Char) :
    (escape msg).length = msg.length + msg.count '"' := by
  induction msg with
  | nil => rfl
  | cons c msg ih =>
    rw [escape_cons, List.length_append, ih, List.count_cons, List.length_cons]
    by_cases hquote : c = '"'
    · simp [hquote]
      omega
    · simp [hquote]
      omega

theorem count_quote_escape (msg : List Char) : (escape msg).count '"' = msg.count '"' := by
  induction msg with
  | nil => rfl
  | cons c msg ih =>
    rw [escape_cons, List.count_append, ih, List.count_cons]
    by_cases hquote : c = '"'
    · simp [hquote, Nat.add_comm]
    · simp [hquote]

theorem count_backslash_escape (msg : List Char) :
    (escape msg).count '\\' = msg.count '\\' + msg.count '"' := by
  induction msg with
  | nil => rfl
  | cons c msg ih =>
    rw [escape_cons, List.count_append, ih, List.count_cons, List.count_cons]
    by_cases hquote : c = '"'
    · simp [hquote]
      omega
    · simp [hquote, List.count_cons]
      omega

/-- Every quote of an escaped text has a backslash before it. -/
theorem backslash_before_quote {msg before after : List Char}
    (hquote : escape msg = before ++ '"' :: after) : ∃ start, before = start ++ ['\\'] := by
  induction msg generalizing before with
  | nil => simp [escape] at hquote
  | cons c msg ih =>
    rw [escape_cons] at hquote
    by_cases hc : c = '"'
    · rw [if_pos hc] at hquote
      match before with
      | [] => simp at hquote
      | [only] =>
        obtain ⟨rfl, _⟩ := List.cons.inj hquote
        exact ⟨[], rfl⟩
      | first :: second :: rest =>
        obtain ⟨start, hstart⟩ := ih (List.cons.inj (List.cons.inj hquote).2).2
        exact ⟨first :: second :: start, by rw [hstart]; rfl⟩
    · rw [if_neg hc] at hquote
      match before with
      | [] => exact absurd (List.cons.inj hquote).1 hc
      | first :: rest =>
        obtain ⟨start, hstart⟩ := ih (List.cons.inj hquote).2
        exact ⟨first :: start, by rw [hstart]; rfl⟩

/-- A message that its answer carries. -/
def Harmless (msg : List Char) : Prop :=
  ∀ c ∈ msg, c ≠ '\\' ∧ 32 ≤ c.toNat

theorem scan_escape {msg : List Char} (hmsg : Harmless msg) (rest : List Char) :
    scan (escape msg ++ '"' :: rest) = some (msg.map Char.toNat, rest) := by
  induction msg with
  | nil => exact scan_quote rest
  | cons c msg ih =>
    obtain ⟨⟨hbackslash, hcontrol⟩, htail⟩ := List.forall_mem_cons.mp hmsg
    rw [escape_cons, List.append_assoc]
    by_cases hquote : c = '"'
    · rw [if_pos hquote, hquote]
      simp only [List.cons_append, List.nil_append, scan_escaped_quote, ih htail, Option.map_some,
        List.map_cons]
    · rw [if_neg hquote, List.singleton_append,
        scan_cons_plain (plain_iff.mpr ⟨hquote, hbackslash, hcontrol⟩), ih htail]
      rfl

/-- Two ways to cut a text at the same character. -/
theorem cut_cases {a b c d : List Char} {x : Char} (hsame : a ++ x :: b = c ++ x :: d) :
    a = c ∧ b = d ∨ (∃ e, c = a ++ x :: e ∧ b = e ++ x :: d) ∨
      ∃ e, a = c ++ x :: e ∧ d = e ++ x :: b := by
  rcases List.append_eq_append_iff.mp hsame with ⟨e, rfl, he⟩ | ⟨e, rfl, he⟩
  · cases e with
    | nil => exact .inl ⟨by simp, (List.cons.inj he).2⟩
    | cons y e =>
      obtain ⟨rfl, hrest⟩ := List.cons.inj he
      exact .inr (.inl ⟨e, rfl, hrest⟩)
  · cases e with
    | nil => exact .inl ⟨by simp, (List.cons.inj he).2.symm⟩
    | cons y e =>
      obtain ⟨rfl, hrest⟩ := List.cons.inj he
      exact .inr (.inr ⟨e, rfl, hrest⟩)

theorem not_space_of_mem_spaces {spaces : List Char} (hspaces : ∀ c ∈ spaces, is_space c = true)
    {c : Char} (hc : is_space c = false) : c ∉ spaces := by
  intro hmem
  rw [hspaces c hmem] at hc
  cases hc

/-- What follows a quote inside an escaped text neither ends an object nor goes
on with another member. -/
theorem object_not_ended {msg before inside : List Char}
    (hsplit : escape msg = before ++ '"' :: inside) :
    (¬ ∃ after, skip (inside ++ ['"', '}']) = '}' :: after ∧ skip after = []) ∧
      ¬ ∃ more inner other, skip (inside ++ ['"', '}']) = ',' :: more ∧
        skip more = '"' :: inner ∧ parse_string inner = some other := by
  have hquote : is_space '"' = false := rfl
  have hbackslash : is_space '\\' = false := rfl
  obtain ⟨spaces, hrest, hspaces⟩ := exists_skip (inside ++ ['"', '}'])
  constructor
  · rintro ⟨after, hskip, hend⟩
    obtain ⟨trailing, hafter, htrailing⟩ := exists_skip after
    rw [hend, List.append_nil] at hafter
    have hmem : '"' ∈ inside ++ ['"', '}'] := by simp
    rw [hrest, hskip, hafter] at hmem
    simp [not_space_of_mem_spaces hspaces hquote, not_space_of_mem_spaces htrailing hquote] at hmem
  · rintro ⟨more, inner, other, hskip, hmore, hother⟩
    obtain ⟨gap, hgap, hgaps⟩ := exists_skip more
    have hcut : inside ++ '"' :: ['}'] = (spaces ++ ',' :: gap) ++ '"' :: inner := by
      rw [List.append_assoc, List.cons_append, ← hmore, ← hgap, ← hskip, ← hrest]
    have hnoquote : '"' ∉ spaces ++ ',' :: gap := by
      simp [not_space_of_mem_spaces hspaces hquote, not_space_of_mem_spaces hgaps hquote]
    have hnobackslash : '\\' ∉ spaces ++ ',' :: gap := by
      simp [not_space_of_mem_spaces hspaces hbackslash, not_space_of_mem_spaces hgaps hbackslash]
    rcases cut_cases hcut with ⟨_, rfl⟩ | ⟨e, he, _⟩ | ⟨e, he, _⟩
    · cases hother
    · exact hnoquote (he ▸ by simp)
    · rw [he, ← List.cons_append, ← List.append_assoc] at hsplit
      obtain ⟨start, hstart⟩ := backslash_before_quote hsplit
      have hlast : ['\\'] <:+ spaces ++ ',' :: gap :=
        List.suffix_of_suffix_length_le ⟨start, hstart.symm⟩ ⟨before ++ ['"'], by simp⟩
          (by simp only [List.length_append, List.length_cons, List.length_nil]; omega)
      exact hnobackslash (hlast.subset (List.mem_singleton_self _))

/-- Where the body of an error is read, its message ends at its last quote. -/
theorem scan_escape_closed {msg rest : List Char} {codes : List Nat}
    (hscan : scan (escape msg ++ ['"', '}']) = some (codes, rest))
    (hobject : (∃ after, skip rest = '}' :: after ∧ skip after = []) ∨
      ∃ more inner other, skip rest = ',' :: more ∧ skip more = '"' :: inner ∧
        parse_string inner = some other) :
    rest = ['}'] ∧ (∀ c ∈ escape msg, 32 ≤ c.toNat) ∧
      2 * codes.length + msg.count '\\' ≤ 2 * msg.length := by
  obtain ⟨read, hread, hcount, hcontrol⟩ := scan_split hscan
  rcases cut_cases (show escape msg ++ '"' :: ['}'] = read ++ '"' :: rest from hread) with
    ⟨rfl, rfl⟩ | ⟨e, _, he⟩ | ⟨inside, hinside, rfl⟩
  · rw [length_escape, count_quote_escape, count_backslash_escape] at hcount
    exact ⟨rfl, hcontrol, by omega⟩
  · have hquote : '"' ∈ ['}'] := he ▸ by simp
    simp at hquote
  · obtain ⟨hend, hmore⟩ := object_not_ended hinside
    exact absurd hobject (not_or.mpr ⟨hend, hmore⟩)

theorem mem_escape {c : Char} {msg : List Char} (hc : c ∈ msg) : c ∈ escape msg := by
  refine List.mem_flatMap.mpr ⟨c, hc, ?_⟩
  split_ifs with hquote
  · simp [hquote]
  · simp

/-- The answer to an error carries the messages without backslashes and control
characters. -/
theorem carries_raised (msg : List Char) :
    (∃ members, Decodes (string_members "status".toList "error".toList "message".toList
        (escape msg ++ ['"', '}'])) (.object members) ∧
      member "status".toList members = some (.string "error".toList) ∧
      member "message".toList members = some (.string msg)) ↔ Harmless msg := by
  have hstatus : ∀ c ∈ "status".toList, plain c = true := by simp [plain]
  have herror : ∀ c ∈ "error".toList, plain c = true := by simp [plain]
  have hmessage : ∀ c ∈ "message".toList, plain c = true := by simp [plain]
  constructor
  · rintro ⟨members, hdecodes, _, hmember⟩
    obtain ⟨meant, rest, hstring, hobject⟩ := hdecodes.string_members hstatus herror hmessage
    obtain ⟨⟨codes, _⟩, hscan, hread⟩ := Option.map_eq_some_iff.mp hstring
    obtain ⟨rfl, rfl⟩ := Prod.mk.inj hread
    obtain ⟨hrest, hcontrol, hcount⟩ := scan_escape_closed hscan
      (hobject.imp_left fun hclosed => by
        obtain ⟨after, hskip, hend, _⟩ := hclosed
        exact ⟨after, hskip, hend⟩)
    rcases hobject with ⟨_, _, _, hvalue⟩ | ⟨more, _, _, hskip, _⟩
    · obtain rfl := Value.object.inj hvalue
      have hmeant : member "message".toList [("status".toList, .string "error".toList),
          ("message".toList, .string (decode codes))] = some (.string (decode codes)) := rfl
      obtain rfl := Value.string.inj (Option.some.inj (hmeant.symm.trans hmember))
      have hlength := length_decode_le codes
      refine fun c hc => ⟨?_, hcontrol c (mem_escape hc)⟩
      rintro rfl
      have hpositive := List.count_pos_iff.mpr hc
      omega
    · rw [hrest, skip_cons rfl] at hskip
      cases (List.cons.inj hskip).1
  · intro hmsg
    have hread : parse_string (escape msg ++ ['"', '}']) = some (msg, ['}']) := by
      rw [parse_string, scan_escape hmsg, Option.map_some, decode_map_toNat]
    exact ⟨_, decodes_string_members hstatus herror hmessage hread, rfl, rfl⟩

/-- A message that is not closed is part of no JSON text. -/
theorem not_decodes_open (status text : String) {publish_time : String}
    (hstatus : ∀ c ∈ status.toList, plain c = true) (htext : '"' ∉ text.toList)
    (hprinted : ∀ c ∈ publish_time.toList, printed c = true) (value : Value) :
    ¬ Decodes (string_members "status".toList status.toList "message".toList
      (text.toList ++ publish_time.toList ++ ['}'])) value := by
  have hkey : ∀ c ∈ "status".toList, plain c = true := by simp [plain]
  have hmessage : ∀ c ∈ "message".toList, plain c = true := by simp [plain]
  have hquote : '"' ∉ publish_time.toList := fun hmem =>
    absurd (hprinted _ hmem) (by simp [printed])
  exact not_decodes_of_not_mem hkey hstatus hmessage (by simp [htext, hquote]) value

/-- The answers to a publish leave the string of their message open. -/
theorem not_decodes_published {publish_time : String}
    (hprinted : ∀ c ∈ publish_time.toList, printed c = true) (publish_result : Int)
    (value : Value) :
    ¬ Decodes (publish_response publish_time publish_result).body.toList value := by
  by_cases hres : publish_result > 0
  · have hopen := not_decodes_open "success" "Message published at time " (by simp [plain])
      (by simp) hprinted value
    simpa [publish_response, hres, json_response, string_members, string_member] using hopen
  · have hopen := not_decodes_open "error" "Failed to publist at time " (by simp [plain])
      (by simp) hprinted value
    simpa [publish_response, hres, json_response, string_members, string_member] using hopen

/-- An answer carries its status and message exactly when it is to an error
whose message has no backslash and no control character. -/
theorem carries_answer {publish_time : String}
    (hprinted : ∀ c ∈ publish_time.toList, printed c = true) (outcome : PublishOutcome) :
    Carries (outcome.answer publish_time).body outcome.status (outcome.message publish_time) ↔
      ∃ msg, outcome = .raised msg ∧ Harmless msg.toList := by
  cases outcome with
  | success =>
    refine iff_of_false ?_ (by simp)
    rintro ⟨members, hdecodes, _⟩
    exact not_decodes_published hprinted 1 _ hdecodes
  | failed =>
    refine iff_of_false ?_ (by simp)
    rintro ⟨members, hdecodes, _⟩
    exact not_decodes_published hprinted 0 _ hdecodes
  | raised msg =>
    have hbody : (PublishOutcome.answer publish_time (.raised msg)).body.toList =
        string_members "status".toList "error".toList "message".toList
          (escape msg.toList ++ ['"', '}']) := by
      simp [PublishOutcome.answer, json_response, escape_quotes, escape, string_members,
        string_member]
    simp only [PublishOutcome.raised.injEq, exists_eq_left']
    rw [← carries_raised, Carries, hbody]
    rfl

theorem publish_response_eq (publish_time : String) (publish_result : Int) :
    publish_response publish_time publish_result =
      (PublishOutcome.of_result publish_result).answer publish_time := by
  by_cases hres : publish_result > 0
  · simp [publish_response, PublishOutcome.of_result, PublishOutcome.answer, hres]
  · simp [publish_response, PublishOutcome.of_result, PublishOutcome.answer, hres]

theorem map_publish_response (publish_time : String)
    {result : Except gossipsub_queues.main.Defect Int} {published : PublishOutcome}
    (hpublished : result.map PublishOutcome.of_result = .ok published) :
    result.map (publish_response publish_time) = .ok (published.answer publish_time) := by
  cases result with
  | error defect => cases hpublished
  | ok publish_result =>
    obtain rfl := Except.ok.inj hpublished
    exact congrArg Except.ok (publish_response_eq publish_time publish_result)

/-- What comes of a request, with what a call of the publisher gives. -/
def publish_outcome (publish : gossipsub_queues.main.PublishRequest →
      Except gossipsub_queues.main.Defect Int) :
    Except String gossipsub_queues.main.PublishRequest →
      Except gossipsub_queues.main.Defect PublishOutcome
  | .error msg => .ok (.raised msg)
  | .ok body => (publish body).map .of_result

/-- The call of the publisher for a request. -/
def request_call (chunks : Int) (now_int msg_id : Nat) (outcome : Nat → Int)
    (body : gossipsub_queues.main.PublishRequest) : gossipsub_queues.main.PublishCall where
  topic := body.topic
  msg_size := body.msg_size
  chunks := chunks
  now_int := now_int
  msg_id := msg_id
  outcome := outcome

/-- Of the answers to publish requests of both nodes, those to errors whose
message has no backslash and no control character are right, and no others. -/
theorem publish_answers (chunks : Int) (now_int msg_id : Nat) (outcome : Nat → Int)
    (publish_time : String) (hprinted : ∀ c ∈ publish_time.toList, printed c = true)
    (body : Except String gossipsub_queues.main.PublishRequest) (published : PublishOutcome) :
    (∀ metrics, publish_outcome (fun request => (gossipsub_queues.main.publish_new_message metrics
          (request_call chunks now_int msg_id outcome request)).result) body = .ok published →
        ∃ response, (gossipsub_queues.main.process_requests metrics chunks
            ⟨.post, "/publish", body⟩ now_int msg_id publish_time outcome).2.2 = .ok response ∧
          (Carries response.body published.status (published.message publish_time) ↔
            ∃ msg, published = .raised msg ∧ ∀ c ∈ msg.toList, c ≠ '\\' ∧ 32 ≤ c.toNat)) ∧
      (publish_outcome (fun request => (regression.node.main.publish_new_message
          (request_call chunks now_int msg_id outcome request)).2) body = .ok published →
        ∃ response, (regression.node.main.process_requests chunks
            ⟨.post, "/publish", body⟩ now_int msg_id publish_time outcome).2 = .ok response ∧
          (Carries response.body published.status (published.message publish_time) ↔
            ∃ msg, published = .raised msg ∧ ∀ c ∈ msg.toList, c ≠ '\\' ∧ 32 ≤ c.toNat)) := by
  have hcarries := carries_answer hprinted published
  constructor
  · intro metrics hpublished
    refine ⟨published.answer publish_time, ?_, hcarries⟩
    cases body with
    | error msg =>
      cases hpublished
      rfl
    | ok request =>
      simp only [gossipsub_queues.main.process_requests, if_true]
      exact map_publish_response publish_time hpublished
  · intro hpublished
    refine ⟨published.answer publish_time, ?_, hcarries⟩
    cases body with
    | error msg =>
      cases hpublished
      rfl
    | ok request =>
      simp only [regression.node.main.process_requests, if_true]
      exact map_publish_response publish_time hpublished

/-- The answer to a request that is no JSON is right. -/
theorem publish_answers_parser_error :
    ∃ response, (gossipsub_queues.main.process_requests ⟨0, 0⟩ 1
        ⟨.post, "/publish", .error "input(1, 1) Error: \x7b expected"⟩ 0 0 "" fun _ => 1).2.2 =
        .ok response ∧
      Carries response.body "error" "input(1, 1) Error: \x7b expected" := by
  obtain ⟨response, hresponse, hcarries⟩ := (publish_answers 1 0 0 (fun _ => 1) ""
    (by simp) (.error "input(1, 1) Error: \x7b expected")
    (.raised "input(1, 1) Error: \x7b expected")).1 ⟨0, 0⟩ rfl
  exact ⟨response, hresponse, hcarries.mpr ⟨_, rfl, by simp⟩⟩

/-- The answer to a message of 17 bytes that is published is not even JSON. -/
theorem publish_success_unreadable :
    ∃ response, (gossipsub_queues.main.process_requests ⟨0, 0⟩ 1
        ⟨.post, "/publish", .ok ⟨"test", 17, 1⟩⟩ 0 0 "2024-01-01T00:00:00Z" fun _ => 1).2.2 =
        .ok response ∧ response.status = 200 ∧
      ¬ Carries response.body "success" "Message published at time 2024-01-01T00:00:00Z" := by
  refine ⟨publish_response "2024-01-01T00:00:00Z" 1, rfl, rfl, ?_⟩
  rintro ⟨members, hdecodes, _⟩
  exact not_decodes_published (by simp [printed]) 1 _ hdecodes

end nim_test_node
