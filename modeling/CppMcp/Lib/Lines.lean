import Mathlib.Data.List.ReduceOption
import Mathlib.Tactic.Common

namespace CppMcp.Lib

variable {α σ : Type}

section Lines

variable [DecidableEq α] (stop : α)

/-- The lines of a text. A last line needs no terminator, but is not empty. -/
def splitLines : List α → List (List α)
  | [] => []
  | b :: rest =>
    if b = stop then [] :: splitLines rest
    else
      match splitLines rest with
      | [] => [[b]]
      | line :: lines => (b :: line) :: lines

variable {stop}

theorem splitLines_line {line : List α} (inside : stop ∉ line) :
    splitLines stop line = if line = [] then [] else [line] := by
  induction line with
  | nil => rfl
  | cons b rest ih =>
    obtain ⟨other, inside⟩ := not_or.mp (List.mem_cons.not.mp inside)
    rw [splitLines, if_neg (Ne.symm other), ih inside]
    cases rest <;> simp

theorem splitLines_append {line : List α} (inside : stop ∉ line) (rest : List α) :
    splitLines stop (line ++ stop :: rest) = line :: splitLines stop rest := by
  induction line with
  | nil => simp [splitLines]
  | cons b line ih =>
    obtain ⟨other, inside⟩ := not_or.mp (List.mem_cons.not.mp inside)
    simp [splitLines, ih inside, Ne.symm other]

theorem splitLines_ne_nil {text : List α} (nonempty : text ≠ []) : splitLines stop text ≠ [] := by
  cases text with
  | nil => exact absurd rfl nonempty
  | cons b rest =>
    rw [splitLines]
    split
    · simp
    · split <;> simp

theorem splitLines_stop (text rest : List α) :
    splitLines stop (text ++ stop :: rest) =
      splitLines stop (text ++ [stop]) ++ splitLines stop rest := by
  induction text with
  | nil => simp [splitLines]
  | cons b text ih =>
    rw [List.cons_append, List.cons_append, splitLines, splitLines, ih]
    have nonempty : splitLines stop (text ++ [stop]) ≠ [] := splitLines_ne_nil (by simp)
    cases lines : splitLines stop (text ++ [stop]) with
    | nil => exact absurd lines nonempty
    | cons line lines => split <;> simp

/-- A last terminator ends the last line, or an empty one behind it. -/
theorem splitLines_concat (text : List α) :
    splitLines stop (text ++ [stop]) = splitLines stop text ∨
      splitLines stop (text ++ [stop]) = splitLines stop text ++ [[]] := by
  induction text with
  | nil => simp [splitLines]
  | cons b text ih =>
    rw [List.cons_append, splitLines, splitLines]
    split
    · exact ih.imp (congrArg ([] :: ·)) (congrArg ([] :: ·))
    · rcases ih with same | more
      · rw [same]
        exact .inl rfl
      · rw [more]
        cases splitLines stop text with
        | nil => exact .inl rfl
        | cons line lines => exact .inr rfl

/-- A text that begins with a word has a first line that does. -/
theorem splitLines_word {word : List α} (inside : stop ∉ word) (nonempty : word ≠ [])
    (rest : List α) : ∃ line ∈ splitLines stop (word ++ rest), word <+: line := by
  suffices ∃ more lines, splitLines stop (word ++ rest) = (word ++ more) :: lines by
    obtain ⟨more, lines, split⟩ := this
    exact ⟨word ++ more, by simp [split], by simp⟩
  induction word with
  | nil => exact absurd rfl nonempty
  | cons b word ih =>
    obtain ⟨other, inside⟩ := not_or.mp (List.mem_cons.not.mp inside)
    rw [List.cons_append, splitLines, if_neg (Ne.symm other)]
    by_cases last : word = []
    · subst last
      cases lines : splitLines stop rest with
      | nil => exact ⟨[], [], by simp [lines]⟩
      | cons line lines' => exact ⟨line, lines', by simp [lines]⟩
    · obtain ⟨more, lines, split⟩ := ih inside last
      exact ⟨more, lines, by simp [split]⟩

/-- Where a line starts, a text does not begin with a word that none of its lines begins with. -/
theorem not_word_of_splitLines {word text : List α} (inside : stop ∉ word) (nonempty : word ≠ [])
    (none : ∀ line ∈ splitLines stop text, ¬ word <+: line) :
    ¬ word <+: text ∧ ∀ before behind, text = before ++ stop :: behind → ¬ word <+: behind := by
  constructor
  · rintro ⟨rest, rfl⟩
    obtain ⟨line, member, begins⟩ := splitLines_word inside nonempty rest
    exact none line member begins
  · rintro before - rfl ⟨rest, rfl⟩
    obtain ⟨line, member, begins⟩ := splitLines_word inside nonempty rest
    refine none line ?_ begins
    rw [splitLines_stop]
    exact List.mem_append_right _ member

end Lines

/-- A part of a text that has the end of its first line has the line. -/
theorem prefix_line {stop : α} {word back part : List α} (inside : stop ∉ word)
    (ended : stop ∈ part) (within : part <+: word ++ stop :: back) :
    ∃ tail, part = word ++ stop :: tail ∧ tail <+: back := by
  rcases List.prefix_or_prefix_of_prefix within (List.prefix_append word (stop :: back)) with
    short | ⟨behind, rfl⟩
  · exact absurd (short.subset ended) inside
  · have ends : behind <+: stop :: back := (List.prefix_append_right_inj word).mp within
    rcases List.prefix_cons_iff.mp ends with rfl | ⟨tail, rfl, behind⟩
    · rw [List.append_nil] at ended
      exact absurd ended inside
    · exact ⟨tail, rfl, behind⟩

/-- A part of a text that has no end of a line is a part of its first line. -/
theorem prefix_unended {stop : α} {word back part : List α} (unended : stop ∉ part)
    (within : part <+: word ++ stop :: back) : part <+: word := by
  by_contra longer
  have whole : word <+: part := (List.prefix_or_prefix_of_prefix within
    (List.prefix_append word (stop :: back))).resolve_left longer
  obtain ⟨behind, rfl⟩ := whole
  have ends : behind <+: stop :: back := (List.prefix_append_right_inj word).mp within
  rcases List.prefix_cons_iff.mp ends with rfl | ⟨tail, rfl, -⟩
  · exact longer (by simp)
  · exact unended (by simp)

/-- A stream in reads: `none` marks the end of a read. -/
def marked (reads : List (List α)) : List (Option α) :=
  reads.flatMap fun read => read.map some ++ [none]

theorem reduceOption_map_some (l : List α) : (l.map some).reduceOption = l := by
  simp [List.reduceOption]

@[simp] theorem marked_cons (read : List α) (reads : List (List α)) :
    marked (read :: reads) = read.map some ++ none :: marked reads := by simp [marked]

theorem reduceOption_marked (reads : List (List α)) :
    (marked reads).reduceOption = reads.flatten := by
  induction reads with
  | nil => rfl
  | cons read reads ih =>
    rw [marked_cons, List.reduceOption_append, List.reduceOption_cons_of_none, ih,
      reduceOption_map_some, List.flatten_cons]

/-- Some read ends where this much of the stream has come. -/
def EndsAt (reads : List (List α)) (seen : List α) : Prop :=
  ∃ done, done ≠ [] ∧ done <+: reads ∧ done.flatten = seen

/-- Some mark stands where this much of the stream has come. -/
def MarkAt (stream : List (Option α)) (seen : List α) : Prop :=
  ∃ a b, stream = a ++ none :: b ∧ a.reduceOption = seen

theorem MarkAt.prefix {stream : List (Option α)} {seen : List α} (mark : MarkAt stream seen) :
    seen <+: stream.reduceOption := by
  obtain ⟨a, b, rfl, rfl⟩ := mark
  rw [List.reduceOption_append]
  exact List.prefix_append _ _

theorem markAt_append {first rest : List (Option α)} {seen : List α} :
    MarkAt (first ++ rest) seen ↔
      MarkAt first seen ∨ ∃ more, seen = first.reduceOption ++ more ∧ MarkAt rest more := by
  constructor
  · rintro ⟨a, b, cut, rfl⟩
    rcases List.append_eq_append_iff.mp cut with ⟨a', rfl, later⟩ | ⟨between, rfl, later⟩
    · exact .inr ⟨_, List.reduceOption_append .., a', b, later, rfl⟩
    · cases between with
      | nil => exact .inr ⟨[], by simp, [], b, later.symm, rfl⟩
      | cons mark between =>
        obtain ⟨rfl, -⟩ := List.cons.inj later
        exact .inl ⟨a, between, rfl, rfl⟩
  · rintro (⟨a, b, rfl, rfl⟩ | ⟨more, rfl, a, b, rfl, rfl⟩)
    · exact ⟨a, b ++ rest, by simp, rfl⟩
    · exact ⟨first ++ a, b, by simp, List.reduceOption_append ..⟩

theorem endsAt_iff_marked {reads : List (List α)} {seen : List α} :
    EndsAt reads seen ↔ MarkAt (marked reads) seen := by
  constructor
  · rintro ⟨done, nonempty, ⟨left, rfl⟩, rfl⟩
    obtain ⟨first, last, rfl⟩ := (List.eq_nil_or_concat' done).resolve_left nonempty
    refine ⟨marked first ++ last.map some, marked left, by simp [marked], ?_⟩
    rw [List.reduceOption_append, reduceOption_marked, reduceOption_map_some]
    simp
  · rintro ⟨a, b, cut, rfl⟩
    induction reads generalizing a with
    | nil => simp [marked] at cut
    | cons read reads ih =>
      have ended : EndsAt (read :: reads) read := ⟨[read], by simp, by simp, by simp⟩
      rw [marked_cons, List.append_eq_append_iff] at cut
      rcases cut with ⟨a', rfl, later⟩ | ⟨inside, split, later⟩
      · rw [List.reduceOption_append, reduceOption_map_some]
        cases a' with
        | nil => simpa using ended
        | cons mark a' =>
          obtain ⟨rfl, further⟩ := List.cons.inj later
          obtain ⟨done, -, within, flat⟩ := ih a' further
          rw [List.reduceOption_cons_of_none, ← flat]
          exact ⟨read :: done, by simp, by simpa using within, by simp⟩
      · cases inside with
        | nil =>
          rw [List.append_nil] at split
          simpa [← split, reduceOption_map_some] using ended
        | cons mark inside =>
          obtain ⟨rfl, -⟩ := List.cons.inj later
          have member : none ∈ read.map some := split ▸ by simp
          simp at member

/-- A fold over the lines of a stream that takes the end of a read for the end of a line. -/
structure LineReader (σ α : Type) where
  state : σ
  line : List α

namespace LineReader

variable [DecidableEq α] (stop : α) (f : σ → List α → σ)

def on (r : LineReader σ α) : Option α → LineReader σ α
  | some b => if b = stop then ⟨f r.state r.line, []⟩ else { r with line := r.line ++ [b] }
  | none => if r.line = [] then r else ⟨f r.state r.line, []⟩

def run (r : LineReader σ α) (stream : List (Option α)) : LineReader σ α := stream.foldl (on stop f) r

@[simp] theorem run_nil (r : LineReader σ α) : r.run stop f [] = r := rfl

@[simp] theorem run_cons (r : LineReader σ α) (t : Option α) (stream : List (Option α)) :
    r.run stop f (t :: stream) = (r.on stop f t).run stop f stream := rfl

@[simp] theorem run_append (r : LineReader σ α) (a b : List (Option α)) :
    r.run stop f (a ++ b) = (r.run stop f a).run stop f b := List.foldl_append

theorem run_read (s : σ) (line read : List α) (inside : stop ∉ line) :
    run stop f ⟨s, line⟩ (read.map some ++ [none]) =
      ⟨(splitLines stop (line ++ read)).foldl f s, []⟩ := by
  induction read generalizing s line with
  | nil =>
    rw [List.append_nil, splitLines_line inside]
    by_cases empty : line = [] <;> simp [on, empty]
  | cons b read ih =>
    rw [List.map_cons, List.cons_append, run_cons, on]
    by_cases ends : b = stop
    · subst ends
      rw [if_pos rfl, ih _ [] (by simp), splitLines_append inside, List.nil_append, List.foldl_cons]
    · rw [if_neg ends, ih _ _ (by simp [inside, Ne.symm ends])]
      simp

/-- Reading a marked stream takes the lines of every read. -/
theorem run_marked (s : σ) (reads : List (List α)) :
    run stop f ⟨s, []⟩ (marked reads) =
      ⟨reads.foldl (fun s read => (splitLines stop read).foldl f s) s, []⟩ := by
  induction reads generalizing s with
  | nil => rfl
  | cons read reads ih =>
    have first := run_read stop f s [] read (by simp)
    have split : marked (read :: reads) = (read.map some ++ [none]) ++ marked reads := by simp
    rw [split, run_append, first, ih]
    simp

variable {stop f}

/-- Ends of reads between two lines are not seen. -/
theorem run_marks {r : LineReader σ α} (idle : r.line = []) {stream : List (Option α)}
    (bare : stream.reduceOption = []) : r.run stop f stream = r := by
  obtain ⟨n, rfl⟩ := (List.reduceOption_eq_nil_iff _).mp bare
  induction n with
  | zero => rfl
  | succ n ih =>
    rw [List.replicate_succ, run_cons]
    simpa [on, idle] using ih (by simp)

theorem run_stop (r : LineReader σ α) {stream : List (Option α)} {text : List α}
    (ends : stream.reduceOption = text ++ [stop]) : ∃ before behind,
    stream = before ++ some stop :: behind ∧ before.reduceOption = text ∧
      r.run stop f stream = ⟨f (r.run stop f before).state (r.run stop f before).line, []⟩ := by
  rw [← List.concat_eq_append] at ends
  obtain ⟨before, behind, rfl, bytes, bare⟩ := (List.reduceOption_eq_concat_iff _ _ _).mp ends
  refine ⟨before, behind, rfl, bytes, ?_⟩
  rw [run_append, run_cons, run_marks _ bare] <;> simp [on]

theorem run_blank (r : LineReader σ α) {stream : List (Option α)} {text : List α}
    (ends : stream.reduceOption = text ++ [stop, stop]) : ∃ before behind,
    stream = before ++ some stop :: behind ∧ before.reduceOption = text ∧
      r.run stop f stream =
        ⟨f (f (r.run stop f before).state (r.run stop f before).line) [], []⟩ := by
  obtain ⟨lines, behind, rfl, bytes, blank⟩ :=
    run_stop (f := f) r (ends.trans (List.append_assoc text [stop] [stop]).symm)
  obtain ⟨before, between, rfl, start, line⟩ := run_stop (f := f) r bytes
  exact ⟨before, between ++ some stop :: behind, by simp, start, by rw [blank, line]⟩

/-- What every line keeps that has a property, when a shorter line has it too and the stream
    has it wherever a line starts. -/
theorem run_invariant {holds : σ → Prop} {good : List α → Prop}
    (keeps : ∀ s line, holds s → good line → holds (f s line))
    (shorter : ∀ line rest, good (line ++ rest) → good line)
    {r : LineReader σ α} {stream : List (Option α)} (before : holds r.state)
    (starts : good (r.line ++ stream.reduceOption))
    (next : ∀ a t b, stream = a ++ t :: b → t = none ∨ t = some stop → good b.reduceOption) :
    holds (r.run stop f stream).state ∧ good (r.run stop f stream).line := by
  induction stream generalizing r with
  | nil => exact ⟨before, by simpa using starts⟩
  | cons t stream ih =>
    have later (a t' b) (cut : stream = a ++ t' :: b) := next (t :: a) t' b (by rw [cut]; rfl)
    have line := shorter _ _ starts
    cases t with
    | some b =>
      by_cases ends : b = stop
      · refine ih ?_ ?_ later
        · simpa [on, ends] using keeps _ _ before line
        · simpa [on, ends] using next [] _ stream rfl (.inr (by rw [ends]))
      · refine ih ?_ ?_ later
        · simpa [on, ends] using before
        · simpa [on, ends, List.reduceOption_cons_of_some] using starts
    | none =>
      have fresh := next [] none stream rfl (.inl rfl)
      by_cases idle : r.line = []
      · refine ih ?_ ?_ later
        · simpa [on, idle] using before
        · simpa [on, idle] using fresh
      · refine ih ?_ ?_ later
        · simpa [on, idle] using keeps _ _ before line
        · simpa [on, idle] using fresh

theorem run_whole (r : LineReader σ α) {stream : List (Option α)} {rest : List α}
    (bytes : stream.reduceOption = rest) (inside : stop ∉ rest)
    (whole : ∀ a b, stream = a ++ none :: b → r.line ++ a.reduceOption = [] ∨ b.reduceOption = []) :
    r.run stop f stream = ⟨r.state, r.line ++ rest⟩ ∨
      r.run stop f stream = ⟨f r.state (r.line ++ rest), []⟩ := by
  induction stream generalizing r rest with
  | nil =>
    subst bytes
    simp
  | cons t stream ih =>
    cases t with
    | some b =>
      subst bytes
      rw [List.reduceOption_cons_of_some] at inside ⊢
      obtain ⟨other, inside⟩ := not_or.mp (List.mem_cons.not.mp inside)
      have next := ih (r.on stop f (some b)) rfl inside fun a c cut => by
        have := whole (some b :: a) c (by rw [cut]; rfl)
        simpa [on, Ne.symm other] using this
      simpa [on, Ne.symm other] using next
    | none =>
      rw [List.reduceOption_cons_of_none] at bytes
      rw [run_cons]
      by_cases idle : r.line = []
      · have same : r.on stop f none = r := by simp [on, idle]
        rw [same]
        refine ih r bytes inside fun a c cut => ?_
        simpa using whole (none :: a) c (by rw [cut]; rfl)
      · have bare : stream.reduceOption = [] := by
          simpa [idle] using whole [] stream rfl
        rw [bare] at bytes
        subst bytes
        have taken : r.on stop f none = ⟨f r.state r.line, []⟩ := by simp [on, idle]
        rw [taken, run_marks rfl bare]
        simp

/-- The first end of a read inside a line ends the line there. -/
theorem run_cut (r : LineReader σ α) {a b : List (Option α)} (inside : stop ∉ a.reduceOption)
    (begun : r.line ++ a.reduceOption ≠ []) (more : b.reduceOption ≠ []) : ∃ a' b',
    a ++ none :: b = a' ++ none :: b' ∧ r.line ++ a'.reduceOption ≠ [] ∧ b'.reduceOption ≠ [] ∧
      r.run stop f (a ++ none :: b) =
        run stop f ⟨f r.state (r.line ++ a'.reduceOption), []⟩ b' := by
  induction a generalizing r with
  | nil =>
    have busy : r.line ≠ [] := by simpa using begun
    exact ⟨[], b, rfl, by simpa using busy, more, by simp [on, busy]⟩
  | cons t a ih =>
    cases t with
    | some c =>
      rw [List.reduceOption_cons_of_some] at inside begun
      obtain ⟨other, inside⟩ := not_or.mp (List.mem_cons.not.mp inside)
      have byte : r.on stop f (some c) = ⟨r.state, r.line ++ [c]⟩ := by simp [on, Ne.symm other]
      obtain ⟨a', b', split, -, more', run⟩ :=
        ih (r.on stop f (some c)) inside (by simp [byte])
      refine ⟨some c :: a', b', by rw [List.cons_append, split]; rfl, ?_, more', ?_⟩
      · simp [List.reduceOption_cons_of_some]
      · rw [List.cons_append, run_cons, run, byte]
        simp [List.reduceOption_cons_of_some]
    | none =>
      rw [List.reduceOption_cons_of_none] at inside begun
      by_cases idle : r.line = []
      · have same : r.on stop f none = r := by simp [on, idle]
        obtain ⟨a', b', split, begun', more', run⟩ := ih r inside begun
        refine ⟨none :: a', b', by rw [List.cons_append, split]; rfl, ?_, more', ?_⟩
        · simpa using begun'
        · rw [List.cons_append, run_cons, same, run, List.reduceOption_cons_of_none]
      · refine ⟨[], a ++ none :: b, rfl, by simpa using idle, ?_, by simp [on, idle]⟩
        rw [List.reduceOption_append, List.reduceOption_cons_of_none]
        simp [more]

end LineReader

end CppMcp.Lib
