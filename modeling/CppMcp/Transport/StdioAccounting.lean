import CppMcp.Transport.StdioWriter

namespace CppMcp

open Lib

namespace StdioWriter

variable {dumper : Dumper}

/-- No message is thrown away: the new one finds room beside those that are really queued. -/
def Fits (dumper : Dumper) (w : StdioWriter) (event : StdioWriterEvent) : Prop :=
  ∀ m, event = .sends m → w.writeStopping = true ∨ w.writeQueue = [] ∨
    w.waitingBytes + (dumper.line m).length ≤ maxQueuedWriteBytes

structure Exact (w : StdioWriter) : Prop where
  lined : w.Lined
  bytes : w.writeQueueBytes.toNat = w.waitingBytes

theorem waitingBytes_concat (kept : List Bytes) (data : Bytes) :
    ((kept ++ [data]).map List.length).sum = (kept.map List.length).sum + data.length := by
  simp

theorem waitingBytes_cons {w : StdioWriter} {oldest : Bytes} {rest : List Bytes}
    (queue : w.writeQueue = oldest :: rest) :
    w.waitingBytes = oldest.length + (rest.map List.length).sum := by
  simp [waitingBytes, queue]

/-- While the count is exact, a `send_message` keeps it so exactly if it throws nothing away. -/
theorem sends_exact_iff {w : StdioWriter} (exact : w.Exact) (m : Json) :
    (w.sendMessage dumper m).writeQueueBytes.toNat = (w.sendMessage dumper m).waitingBytes ↔
      w.Fits dumper (.sends m) := by
  have size := size_line dumper m
  have sized := (line_sized dumper m).2
  have counted := exact.bytes
  have bound := w.writeQueueBytes.toNat_lt
  have total : (w.writeQueueBytes + .ofNat (dumper.line m).length).toNat =
      (w.waitingBytes + (dumper.line m).length) % 2 ^ 64 := by
    rw [UInt64.toNat_add, size, counted]
  unfold Fits
  simp only [StdioWriterEvent.sends.injEq, forall_eq']
  rcases sendMessage_cases w m with ⟨stopping, same⟩ | ⟨running, within, grows⟩ |
    ⟨oldest, rest, running, overflow, queue, drops⟩
  · rw [same]
    exact iff_of_true counted (.inl stopping)
  · rw [grows]
    show (w.writeQueueBytes + _).toNat = ((w.writeQueue ++ [_]).map List.length).sum ↔ _
    rw [waitingBytes_concat, total]
    show _ = w.waitingBytes + _ ↔ _
    rcases within with within | empty
    · simp only [overflows, total, decide_eq_false_iff_not, Nat.not_lt] at within
      unfold maxQueuedWriteBytes at within ⊢
      constructor
      · intro same
        exact .inr (.inr (by omega))
      · rintro (stopping | empty | fits)
        · rw [running] at stopping
          cases stopping
        · have nothing : w.waitingBytes = 0 := by simp [waitingBytes, empty]
          omega
        · omega
    · have nothing : w.waitingBytes = 0 := by simp [waitingBytes, empty]
      exact iff_of_true (by omega) (.inr (.inl empty))
  · have sizes := exact.lined oldest (by simp [queue])
    have front := waitingBytes_cons queue
    simp only [overflows, total, decide_eq_true_eq] at overflow
    rw [drops]
    show (w.writeQueueBytes + _).toNat = ((rest ++ [_]).map List.length).sum ↔ _
    rw [waitingBytes_concat, total]
    refine iff_of_false (by omega) ?_
    rintro (stopping | empty | fits)
    · rw [running] at stopping
      cases stopping
    · rw [queue] at empty
      cases empty
    · have below := Nat.mod_le (w.waitingBytes + (dumper.line m).length) (2 ^ 64)
      omega

theorem step_exact_iff {w w' : StdioWriter} {event : StdioWriterEvent} (exact : w.Exact)
    (h : w.step dumper event = some w') : w'.Exact ↔ w.Fits dumper event := by
  have lined := step_lined exact.lined h
  have counted : w'.Exact ↔ w'.writeQueueBytes.toNat = w'.waitingBytes :=
    ⟨fun exact => exact.bytes, fun bytes => ⟨lined, bytes⟩⟩
  rw [counted]
  by_cases send : ∃ m, event = .sends m
  · obtain ⟨m, rfl⟩ := send
    cases h
    exact sends_exact_iff exact m
  · have other (m : Json) : event ≠ .sends m := fun same => send ⟨m, same⟩
    refine iff_of_true ?_ fun m same => absurd same (other m)
    rcases (step_other other h).2 with ⟨queue, bytes⟩ | ⟨data, queue, bytes⟩
    · rw [bytes, exact.bytes, waitingBytes, waitingBytes, queue]
    · have front := waitingBytes_cons queue
      have sizes := exact.lined data (by simp [queue])
      have size : (UInt64.ofNat data.length).toNat = data.length := UInt64.toNat_ofNat_of_lt' sizes.2
      have within : UInt64.ofNat data.length ≤ w.writeQueueBytes := by
        rw [UInt64.le_iff_toNat_le, size, exact.bytes]
        omega
      rw [bytes, UInt64.toNat_sub_of_le _ _ within, size, exact.bytes, front]
      show _ = (w'.writeQueue.map List.length).sum
      omega

theorem initial_lined : Lined {} := fun _ member => by cases member

theorem run_lined {events : List StdioWriterEvent} {w : StdioWriter}
    (h : run (step dumper) {} events = some w) : w.Lined :=
  run_keeps (fun _ _ _ lined stepped => step_lined lined stepped) initial_lined h

/-- The count is what is queued, all along a run, and what is thrown away had to give way to a
    message that the bytes really queued leave no room for. -/
structure Accounted (dumper : Dumper) (events : List StdioWriterEvent) : Prop where
  bytes : ∀ front back t, events = front ++ back → run (step dumper) {} front = some t →
    t.writeQueueBytes.toNat = t.waitingBytes
  discards : ∀ front event back t t', events = front ++ event :: back →
    run (step dumper) {} front = some t → t.step dumper event = some t' →
    t'.discarded ≠ t.discarded → ∃ m, event = .sends m ∧
      maxQueuedWriteBytes < t.waitingBytes + (dumper.line m).length

/-- What an exact count has thrown away is not thrown away for nothing. -/
theorem discards_overflow {w w' : StdioWriter} {event : StdioWriterEvent} (exact : w.Exact)
    (h : w.step dumper event = some w') (discards : w'.discarded ≠ w.discarded) :
    ∃ m, event = .sends m ∧ maxQueuedWriteBytes < w.waitingBytes + (dumper.line m).length := by
  by_cases send : ∃ m, event = .sends m
  · obtain ⟨m, rfl⟩ := send
    refine ⟨m, rfl, ?_⟩
    cases h
    rcases sendMessage_cases w m with ⟨-, same⟩ | ⟨-, -, grows⟩ | ⟨oldest, rest, -, overflow, -, -⟩
    · rw [same] at discards
      exact absurd rfl discards
    · rw [grows] at discards
      exact absurd rfl discards
    · have below := Nat.mod_le (w.waitingBytes + (dumper.line m).length) (2 ^ 64)
      simp only [overflows, UInt64.toNat_add, size_line, exact.bytes, decide_eq_true_eq] at overflow
      omega
  · exact absurd (step_other (fun m same => send ⟨m, same⟩) h).1 discards

/-- The writer's accounting is exact along a run exactly if no `send_message` of it finds messages
    queued whose bytes leave no room for its own. -/
theorem accounted_iff (events : List StdioWriterEvent) (w : StdioWriter)
    (h : run (step dumper) {} events = some w) :
    Accounted dumper events ↔ Meets (step dumper) (Fits dumper) {} events := by
  have start : Exact {} := ⟨initial_lined, rfl⟩
  rw [← along_iff_meets (fun _ _ _ exact stepped => step_exact_iff exact stepped) start h]
  constructor
  · intro accounted front back t split reached
    exact ⟨run_lined reached, accounted.bytes front back t split reached⟩
  · intro exact
    constructor
    · exact fun front back t split reached => (exact front back t split reached).bytes
    · intro front event back t t' split reached stepped
      exact discards_overflow (exact front (event :: back) t split reached) stepped

/-- A log notification of this many letters. -/
def notice (letters : Nat) : Json :=
  serializeNotification ⟨Protocol.notifMessage,
    some (.object [("data", .string (String.ofList (List.replicate letters 'a')))])⟩

def noticeHead : Bytes :=
  ascii "\x7b\"jsonrpc\":\"2.0\",\"method\":\"notifications/message\",\"params\":\x7b\"data\":\""

def noticeTail : Bytes := ascii "\"\x7d\x7d"

/-- `dump` of such notifications. -/
def noticeDump (m : Json) : Bytes :=
  match (m.find? "params").bind fun params => params.find? "data" with
  | some (.string s) =>
    if s.length < 2 ^ 32 then noticeHead ++ List.replicate s.length 97 ++ noticeTail else []
  | _ => []

theorem notice_ends : noticeHead.length = 68 ∧ noticeTail.length = 3 := by decide

def noticeDumper : Dumper where
  dump := noticeDump
  sized m := by
    unfold noticeDump
    split
    · split
      · simp [notice_ends]
        omega
      · simp
    · simp

theorem notice_length (letters : Nat) (short : letters < 2 ^ 32) :
    (noticeDumper.line (notice letters)).length = letters + 72 := by
  have data : ((notice letters).find? "params").bind (fun params => params.find? "data") =
      some (.string (String.ofList (List.replicate letters 'a'))) := by
    simp [notice, serializeNotification, find?_mk]
  have size : (String.ofList (List.replicate letters 'a')).length = letters := by simp
  have text : noticeDumper.line (notice letters) =
      noticeHead ++ List.replicate letters 97 ++ noticeTail ++ [newline] := by
    simp only [Dumper.line, noticeDumper, noticeDump, data, size, if_pos short]
  rw [text]
  simp [notice_ends]
  omega

def twoBigNotices : List StdioWriterEvent :=
  [.sends (notice (20 * 2 ^ 20)), .sends (notice (20 * 2 ^ 20))]

theorem big_notices_checked : ∃ w, run (step noticeDumper) {} twoBigNotices = some w ∧
    (Accounted noticeDumper twoBigNotices ↔
      Meets (step noticeDumper) (Fits noticeDumper) {} twoBigNotices) :=
  ⟨_, rfl, accounted_iff twoBigNotices _ rfl⟩

/-- The state after messages of which each but the last was thrown away for the next. -/
def lastOf (discarded : List Bytes) (bytes : UInt64) (data : Bytes) : StdioWriter :=
  { writeQueue := [data], writeQueueBytes := bytes, discarded }

theorem sendMessage_drops {discarded : List Bytes} {bytes : UInt64} {data : Bytes} {m : Json}
    (overflow : (lastOf discarded bytes data).overflows (dumper.line m) = true) :
    (lastOf discarded bytes data).sendMessage dumper m =
      lastOf (discarded ++ [data]) (bytes + .ofNat (dumper.line m).length) (dumper.line m) := by
  have running : (lastOf discarded bytes data).writeStopping = false := rfl
  unfold sendMessage
  simp only [running, overflow, Bool.false_eq_true, if_false, if_true]
  rfl

theorem sendMessage_first (dumper : Dumper) (m : Json) :
    ({} : StdioWriter).sendMessage dumper m =
      lastOf [] (0 + .ofNat (dumper.line m).length) (dumper.line m) := by
  rcases sendMessage_cases {} m with ⟨stopping, -⟩ | ⟨-, -, grows⟩ | ⟨_, _, -, -, queue, -⟩
  · cases stopping
  · rw [grows]
    rfl
  · cases queue

/-- The second of two messages that have no room together replaces the first, which is still
    counted. So the next message throws the second one away, although there is room for both. -/
theorem replaced_still_counted {big small : Json} {n : Nat} (size : (dumper.line big).length = n)
    (together : maxQueuedWriteBytes < n + n) (short : n + n < 2 ^ 63)
    (beside : n + (dumper.line small).length ≤ maxQueuedWriteBytes) :
    ∃ w w', run (step dumper) {} [.sends big, .sends big] = some w ∧
      w.writeQueueBytes.toNat ≠ w.waitingBytes ∧ w.step dumper (.sends small) = some w' ∧
      w'.discarded ≠ w.discarded ∧
      w.waitingBytes + (dumper.line small).length ≤ maxQueuedWriteBytes := by
  have one : (UInt64.ofNat n).toNat = n := UInt64.toNat_ofNat_of_lt' (by unfold UInt64.size; omega)
  have two : (0 + UInt64.ofNat n + UInt64.ofNat n).toNat = n + n := by
    simp only [UInt64.toNat_add, one, UInt64.toNat_zero]
    omega
  have overflow : (lastOf [] (0 + .ofNat n) (dumper.line big)).overflows (dumper.line big) =
      true := by
    simp only [overflows, lastOf, size, two, decide_eq_true_eq]
    exact together
  have again : (lastOf [dumper.line big] (0 + .ofNat n + .ofNat n) (dumper.line big)).overflows
      (dumper.line small) = true := by
    have little := (line_sized dumper small).2
    simp only [overflows, lastOf, UInt64.toNat_add (0 + UInt64.ofNat n + UInt64.ofNat n), two,
      size_line, decide_eq_true_eq]
    unfold maxQueuedWriteBytes at beside together ⊢
    omega
  have waits : (lastOf [dumper.line big] (0 + .ofNat n + .ofNat n)
      (dumper.line big)).waitingBytes = n := by
    simp [lastOf, waitingBytes, size]
  have first := sendMessage_first dumper big
  rw [size] at first
  have second := sendMessage_drops overflow
  rw [size] at second
  refine ⟨lastOf [dumper.line big] (0 + .ofNat n + .ofNat n) (dumper.line big), _, ?_, ?_, rfl, ?_, ?_⟩
  · show some ((({} : StdioWriter).sendMessage dumper big).sendMessage dumper big) = _
    rw [first, second]
    rfl
  · rw [waits]
    show (0 + UInt64.ofNat n + UInt64.ofNat n).toNat ≠ n
    unfold maxQueuedWriteBytes at together
    omega
  · rw [sendMessage_drops again]
    simp [lastOf]
  · rw [waits]
    exact beside

theorem big_notices_miscounted : ∃ w w', run (step noticeDumper) {} twoBigNotices = some w ∧
    w.writeQueueBytes.toNat ≠ w.waitingBytes ∧
    w.step noticeDumper (.sends (notice 0)) = some w' ∧ w'.discarded ≠ w.discarded ∧
    w.waitingBytes + (noticeDumper.line (notice 0)).length ≤ maxQueuedWriteBytes :=
  replaced_still_counted (notice_length _ (by decide)) (by decide) (by decide)
    (by rw [notice_length _ (by decide)]; decide)

/-- There is room for the message, or the one message that is thrown away makes it. -/
def MakesRoom (dumper : Dumper) (w : StdioWriter) (event : StdioWriterEvent) : Prop :=
  ∀ m, event = .sends m → w.writeStopping = true ∨
    w.waitingBytes + (dumper.line m).length ≤ maxQueuedWriteBytes ∨
    w.overflows (dumper.line m) = true ∧ ∃ oldest ∈ w.writeQueue.head?,
      w.waitingBytes + (dumper.line m).length ≤ maxQueuedWriteBytes + oldest.length

/-- What a `send_message` leaves queued is within the limit. -/
def KeepsBound (dumper : Dumper) (w : StdioWriter) (event : StdioWriterEvent) : Prop :=
  ∀ m, event = .sends m → (w.sendMessage dumper m).waitingBytes ≤ maxQueuedWriteBytes

theorem sends_bounded_iff {w : StdioWriter} (bounded : w.waitingBytes ≤ maxQueuedWriteBytes)
    (event : StdioWriterEvent) : w.KeepsBound dumper event ↔ w.MakesRoom dumper event := by
  refine forall₂_congr fun m _ => ?_
  rcases sendMessage_cases w m with ⟨stopping, same⟩ | ⟨running, within, grows⟩ |
    ⟨oldest, rest, running, overflow, queue, drops⟩
  · rw [same]
    exact iff_of_true bounded (.inl stopping)
  · have total : (w.sendMessage dumper m).waitingBytes =
        w.waitingBytes + (dumper.line m).length := by
      rw [grows]
      exact waitingBytes_concat w.writeQueue (dumper.line m)
    rw [total]
    constructor
    · exact fun room => .inr (.inl room)
    · rintro (stopping | room | ⟨overflow, oldest, first, -⟩)
      · rw [running] at stopping
        cases stopping
      · exact room
      · rcases within with within | empty
        · rw [within] at overflow
          cases overflow
        · rw [empty] at first
          cases first
  · have front := waitingBytes_cons queue
    have total : (w.sendMessage dumper m).waitingBytes =
        (rest.map List.length).sum + (dumper.line m).length := by
      rw [drops]
      exact waitingBytes_concat rest (dumper.line m)
    rw [total]
    constructor
    · exact fun room => .inr (.inr ⟨overflow, oldest, by simp [queue], by omega⟩)
    · rintro (stopping | room | ⟨-, oldest', first, room⟩)
      · rw [running] at stopping
        cases stopping
      · omega
      · rw [queue] at first
        cases first
        omega

theorem step_bounded {w w' : StdioWriter} {event : StdioWriterEvent}
    (bounded : w.waitingBytes ≤ maxQueuedWriteBytes) (keeps : w.KeepsBound dumper event)
    (h : w.step dumper event = some w') : w'.waitingBytes ≤ maxQueuedWriteBytes := by
  by_cases send : ∃ m, event = .sends m
  · obtain ⟨m, rfl⟩ := send
    cases h
    exact keeps m rfl
  · rcases (step_other (fun m same => send ⟨m, same⟩) h).2 with ⟨queue, -⟩ | ⟨data, queue, -⟩
    · rwa [waitingBytes, queue]
    · have front := waitingBytes_cons queue
      show (w'.writeQueue.map List.length).sum ≤ maxQueuedWriteBytes
      omega

/-- What is queued is within the limit after each `send_message` of a run exactly if each of them
    finds room for its message or gets it from the one message that it throws away. -/
theorem queue_bounded_iff (events : List StdioWriterEvent) (w : StdioWriter)
    (h : run (step dumper) {} events = some w) :
    (∀ front m back t t', events = front ++ .sends m :: back →
      run (step dumper) {} front = some t → t.step dumper (.sends m) = some t' →
      t'.waitingBytes ≤ maxQueuedWriteBytes) ↔
      Meets (step dumper) (MakesRoom dumper) {} events := by
  have same : Meets (step dumper) (KeepsBound dumper) {} events ↔
      Meets (step dumper) (MakesRoom dumper) {} events :=
    meets_congr_among (fun _ _ _ bounded _ keeps stepped => step_bounded bounded keeps stepped)
      (fun _ event bounded (_ : True) => sends_bounded_iff bounded event) (Nat.zero_le _)
      fun _ _ => True.intro
  rw [← same, meets_iff h]
  constructor
  · rintro bounded front event back t split reached m rfl
    exact bounded front m back t _ split reached rfl
  · intro keeps front m back t t' split reached stepped
    cases stepped
    exact keeps front (.sends m) back t split reached m rfl

/-- A small message and two of half the limit, each of them within it. -/
def threeNotices : List StdioWriterEvent :=
  [.sends (notice 0), .sends (notice (16 * 2 ^ 20)), .sends (notice (16 * 2 ^ 20))]

theorem three_notices_checked : ∃ w, run (step noticeDumper) {} threeNotices = some w ∧
    ((∀ front m back t t', threeNotices = front ++ .sends m :: back →
      run (step noticeDumper) {} front = some t → t.step noticeDumper (.sends m) = some t' →
      t'.waitingBytes ≤ maxQueuedWriteBytes) ↔
      Meets (step noticeDumper) (MakesRoom noticeDumper) {} threeNotices) :=
  ⟨_, rfl, queue_bounded_iff threeNotices _ rfl⟩

theorem sendMessage_second {data : Bytes} {m : Json}
    (fits : data.length + (dumper.line m).length ≤ maxQueuedWriteBytes) :
    ∃ w, (lastOf [] (0 + .ofNat data.length) data).sendMessage dumper m = w ∧
      w.writeStopping = false ∧ w.writeQueue = [data, dumper.line m] := by
  have overflow : (lastOf [] (0 + .ofNat data.length) data).overflows (dumper.line m) = false := by
    simp only [overflows, lastOf, UInt64.toNat_add, UInt64.toNat_zero, UInt64.toNat_ofNat',
      decide_eq_false_iff_not]
    unfold maxQueuedWriteBytes at fits ⊢
    omega
  have running : (lastOf [] (0 + .ofNat data.length) data).writeStopping = false := rfl
  unfold sendMessage
  simp only [running, overflow, Bool.false_eq_true, if_false]
  exact ⟨_, rfl, rfl, rfl⟩

/-- One small message is thrown away for a big one that has no room beside another. -/
theorem small_makes_no_room {small big : Json}
    (beside : (dumper.line small).length + (dumper.line big).length ≤ maxQueuedWriteBytes)
    (together : maxQueuedWriteBytes < (dumper.line big).length + (dumper.line big).length) :
    ∃ w, run (step dumper) {} [.sends small, .sends big, .sends big] = some w ∧
      maxQueuedWriteBytes < w.waitingBytes := by
  obtain ⟨t, second, running, queue⟩ := sendMessage_second beside
  rw [← sendMessage_first dumper small] at second
  refine ⟨_, rfl, ?_⟩
  show maxQueuedWriteBytes < ((({} : StdioWriter).sendMessage dumper small).sendMessage dumper
    big |>.sendMessage dumper big).waitingBytes
  rw [second]
  have waiting : t.waitingBytes = (dumper.line small).length + (dumper.line big).length := by
    simp [waitingBytes, queue]
  by_contra bounded
  have keeps : t.KeepsBound dumper (.sends big) := by
    rintro m same
    cases same
    exact Nat.le_of_not_lt bounded
  rcases (sends_bounded_iff (waiting.trans_le beside) _).mp keeps big rfl with
    stopping | room | ⟨-, oldest, first, room⟩
  · rw [running] at stopping
    cases stopping
  · omega
  · rw [queue] at first
    cases first
    omega

theorem three_notices_exceed : (∀ m, .sends m ∈ threeNotices →
      (noticeDumper.line m).length ≤ maxQueuedWriteBytes) ∧
    ∃ w, run (step noticeDumper) {} threeNotices = some w ∧
      maxQueuedWriteBytes < w.waitingBytes := by
  have small := notice_length 0 (by decide)
  have half := notice_length (16 * 2 ^ 20) (by decide)
  constructor
  · intro m member
    simp only [threeNotices, List.mem_cons, StdioWriterEvent.sends.injEq, List.not_mem_nil,
      or_false] at member
    rcases member with rfl | rfl | rfl
    · rw [small]
      decide
    · rw [half]
      decide
    · rw [half]
      decide
  · exact small_makes_no_room (by rw [small, half]; decide) (by rw [half]; decide)

end StdioWriter

end CppMcp
