import Mathlib.Data.List.Basic
import Mathlib.Tactic.Common

namespace CppMcp.Lib

/-- The characters that one place of a pattern takes. -/
structure CharSet (α : Type) where
  negated : Bool
  members : List α

/-- A pattern, in the part of ECMAScript without alternatives, whose repetitions are of one
    character. -/
inductive Regex (α : Type) where
  | empty
  | start
  | stop
  | chars (set : CharSet α)
  | plus (set : CharSet α)
  | group (inner : Regex α)
  | seq (first second : Regex α)

section Matching

variable {α : Type}

/-- What a pattern has captured, by the order of its groups, and the text it leaves. -/
abbrev Taken (α : Type) := List (List α) × List α

def Taken.then (first second : Taken α) : Taken α := (first.1 ++ second.1, second.2)

def Regex.groups : Regex α → Nat
  | .group inner => inner.groups + 1
  | .seq first second => first.groups + second.groups
  | _ => 0

theorem then_assoc (a b c : Taken α) : (a.then b).then c = a.then (b.then c) := by
  simp [Taken.then]

/-- The patterns, one after the other. -/
def Regex.sequence (parts : List (Regex α)) : Regex α := parts.foldr .seq .empty

/-- The captures of the first way that leaves nothing. -/
def firstWhole (ways : List (Taken α)) : Option (List (List α)) :=
  (ways.find? fun taken => taken.2.isEmpty).map (·.1)

/-- Two patterns in a row match by the first way of the first that the second completes. -/
theorem firstWhole_flatMap (ways : List (Taken α)) (next : List α → List (Taken α)) :
    firstWhole (ways.flatMap fun taken => (next taken.2).map taken.then) =
      ways.findSome? fun taken => (firstWhole (next taken.2)).map (taken.1 ++ ·) := by
  unfold firstWhole
  rw [List.find?_flatMap, List.map_findSome?]
  congr 1
  funext taken
  simp only [Function.comp_apply, List.find?_map, Option.map_map]
  rfl

/-- A run is inside the longest one when all its characters are in the set. -/
theorem length_le_takeWhile {p : α → Bool} {run rest : List α} :
    run.length ≤ ((run ++ rest).takeWhile p).length ↔ ∀ a ∈ run, p a = true := by
  induction run with
  | nil => simp
  | cons a run ih =>
    cases held : p a with
    | false => simp [held]
    | true => simp [held, ih]

variable [DecidableEq α]

def CharSet.has (set : CharSet α) (a : α) : Bool := set.members.contains a != set.negated

/-- The ways a pattern matches at the head of `text`, which ends `whole`, in the order in
    which a backtracking matcher tries them: a repetition takes as much as it can. -/
def Regex.results (whole : List α) : Regex α → List α → List (Taken α)
  | .empty, text => [([], text)]
  | .start, text => if text.length = whole.length then [([], text)] else []
  | .stop, text => if text.isEmpty then [([], text)] else []
  | .chars _, [] => []
  | .chars set, a :: rest => if set.has a then [([], rest)] else []
  | .plus set, text =>
    ((List.range (text.takeWhile set.has).length).reverse.map (· + 1)).map fun n =>
      ([], text.drop n)
  | .group inner, text =>
    (inner.results whole text).map fun taken =>
      (text.take (text.length - taken.2.length) :: taken.1, taken.2)
  | .seq first second, text =>
    (first.results whole text).flatMap fun taken =>
      (second.results whole taken.2).map taken.then

def Regex.fullMatch (r : Regex α) (text : List α) : Option (List (List α)) :=
  firstWhole (r.results text text)

/-- What a pattern may take, in any order of trying. -/
inductive Regex.Takes (whole : List α) : Regex α → List α → Taken α → Prop where
  | empty {text : List α} : Takes whole .empty text ([], text)
  | start {text : List α} (first : text.length = whole.length) :
      Takes whole .start text ([], text)
  | stop : Takes whole .stop [] ([], [])
  | chars {set : CharSet α} {a : α} {rest : List α} (has : set.has a = true) :
      Takes whole (.chars set) (a :: rest) ([], rest)
  | plus {set : CharSet α} {run rest : List α} (some : run ≠ [])
      (has : ∀ a ∈ run, set.has a = true) :
      Takes whole (.plus set) (run ++ rest) ([], rest)
  | group {inner : Regex α} {run rest : List α} {captures : List (List α)}
      (within : Takes whole inner (run ++ rest) (captures, rest)) :
      Takes whole (.group inner) (run ++ rest) (run :: captures, rest)
  | seq {first second : Regex α} {text : List α} {before after : Taken α}
      (begins : Takes whole first text before) (ends : Takes whole second before.2 after) :
      Takes whole (.seq first second) text (before.then after)

variable {whole text : List α} {r : Regex α} {taken : Taken α}

theorem Regex.Takes.suffix (takes : r.Takes whole text taken) : ∃ run, text = run ++ taken.2 := by
  induction takes with
  | empty | start | stop => exact ⟨[], rfl⟩
  | chars => exact ⟨[_], rfl⟩
  | plus | group => exact ⟨_, rfl⟩
  | seq _ _ ihFirst ihSecond =>
    obtain ⟨run, first⟩ := ihFirst
    obtain ⟨run', second⟩ := ihSecond
    exact ⟨run ++ run', by rw [first, second, List.append_assoc]; rfl⟩

theorem takes_chars {set : CharSet α} :
    (Regex.chars set).Takes whole text taken ↔
      ∃ a, text = a :: taken.2 ∧ set.has a = true ∧ taken.1 = [] := by
  constructor
  · intro takes
    cases takes with
    | chars has => exact ⟨_, rfl, has, rfl⟩
  · obtain ⟨captures, rest⟩ := taken
    rintro ⟨a, rfl, has, rfl⟩
    exact .chars has

theorem takes_plus {set : CharSet α} :
    (Regex.plus set).Takes whole text taken ↔
      ∃ run, text = run ++ taken.2 ∧ run ≠ [] ∧ (∀ a ∈ run, set.has a = true) ∧ taken.1 = [] := by
  constructor
  · intro takes
    cases takes with
    | plus some has => exact ⟨_, rfl, some, has, rfl⟩
  · obtain ⟨captures, rest⟩ := taken
    rintro ⟨run, rfl, some, has, rfl⟩
    exact .plus some has

theorem takes_group {inner : Regex α} :
    (Regex.group inner).Takes whole text taken ↔
      ∃ run captures, text = run ++ taken.2 ∧ inner.Takes whole text (captures, taken.2) ∧
        taken.1 = run :: captures := by
  constructor
  · intro takes
    cases takes with
    | group within => exact ⟨_, _, rfl, within, rfl⟩
  · obtain ⟨captured, rest⟩ := taken
    rintro ⟨run, captures, rfl, within, rfl⟩
    exact .group within

theorem takes_seq {first second : Regex α} :
    (first.seq second).Takes whole text taken ↔
      ∃ before after, first.Takes whole text before ∧ second.Takes whole before.2 after ∧
        taken = before.then after := by
  constructor
  · intro takes
    cases takes with
    | seq begins ends => exact ⟨_, _, begins, ends, rfl⟩
  · rintro ⟨before, after, begins, ends, rfl⟩
    exact .seq begins ends

theorem mem_plus {set : CharSet α} :
    taken ∈ (Regex.plus set).results whole text ↔ (Regex.plus set).Takes whole text taken := by
  rw [takes_plus]
  constructor
  · intro member
    obtain ⟨n, counted, rfl⟩ := List.mem_map.mp member
    obtain ⟨k, within, rfl⟩ := List.mem_map.mp counted
    have short : k + 1 ≤ (text.takeWhile set.has).length :=
      List.mem_range.mp (List.mem_reverse.mp within)
    have inside := Nat.le_trans short (List.takeWhile_prefix set.has).length_le
    have long : (text.take (k + 1)).length = k + 1 := List.length_take_of_le inside
    refine ⟨text.take (k + 1), (List.take_append_drop ..).symm,
      List.ne_nil_of_length_eq_add_one long, ?_, rfl⟩
    apply length_le_takeWhile.mp
    rwa [List.take_append_drop, long]
  · obtain ⟨captures, rest⟩ := taken
    rintro ⟨run, rfl, some, has, rfl⟩
    have within : run.length ≤ ((run ++ rest).takeWhile set.has).length :=
      length_le_takeWhile.mpr has
    have long := List.length_pos_iff.mpr some
    refine List.mem_map.mpr ⟨run.length, List.mem_map.mpr ⟨run.length - 1, ?_, ?_⟩, by simp⟩
    · exact List.mem_reverse.mpr (List.mem_range.mpr (Nat.lt_of_lt_of_le (by omega) within))
    · omega

/-- The matcher finds every match, and no other. -/
theorem mem_results : taken ∈ r.results whole text ↔ r.Takes whole text taken := by
  induction r generalizing text taken with
  | empty =>
    simp only [Regex.results, List.mem_singleton]
    exact ⟨fun same => same ▸ .empty, fun takes => by cases takes; rfl⟩
  | start =>
    simp only [Regex.results, List.mem_ite_nil_right, List.mem_singleton]
    exact ⟨fun member => member.2 ▸ .start member.1,
      fun takes => by cases takes with | start first => exact ⟨first, rfl⟩⟩
  | stop =>
    simp only [Regex.results, List.mem_ite_nil_right, List.mem_singleton, List.isEmpty_iff]
    exact ⟨fun ⟨ends, same⟩ => by rw [same, ends]; exact .stop,
      fun takes => by cases takes; exact ⟨rfl, rfl⟩⟩
  | chars set =>
    rw [takes_chars]
    cases text with
    | nil => simp [Regex.results]
    | cons a rest =>
      simp only [Regex.results, List.mem_ite_nil_right, List.mem_singleton, List.cons.injEq]
      constructor
      · rintro ⟨has, rfl⟩
        exact ⟨a, ⟨rfl, rfl⟩, has, rfl⟩
      · rintro ⟨_, ⟨rfl, rfl⟩, has, none⟩
        exact ⟨has, Prod.ext none rfl⟩
  | plus set => exact mem_plus
  | group inner ih =>
    rw [takes_group]
    constructor
    · intro member
      obtain ⟨within, found, rfl⟩ := List.mem_map.mp member
      obtain ⟨run, rfl⟩ := (ih.mp found).suffix
      exact ⟨run, within.1, rfl, ih.mp found, by simp⟩
    · rintro ⟨run, captures, rfl, within, own⟩
      exact List.mem_map.mpr ⟨_, ih.mpr within, Prod.ext (by simp [own]) rfl⟩
  | seq first second ihFirst ihSecond =>
    rw [takes_seq]
    constructor
    · intro member
      obtain ⟨before, found, rest⟩ := List.mem_flatMap.mp member
      obtain ⟨after, found', rfl⟩ := List.mem_map.mp rest
      exact ⟨before, after, ihFirst.mp found, ihSecond.mp found', rfl⟩
    · rintro ⟨before, after, begins, ends, rfl⟩
      exact List.mem_flatMap.mpr ⟨before, ihFirst.mpr begins,
        List.mem_map.mpr ⟨after, ihSecond.mpr ends, rfl⟩⟩

theorem firstWhole_takes {captures : List (List α)}
    (matched : firstWhole (r.results whole text) = some captures) :
    r.Takes whole text (captures, []) := by
  obtain ⟨taken, found, rfl⟩ := Option.map_eq_some_iff.mp matched
  have ends : taken.2 = [] := by simpa using List.find?_some found
  have takes := mem_results.mp (List.mem_of_find?_eq_some found)
  rwa [← ends]

theorem firstWhole_isSome :
    (firstWhole (r.results whole text)).isSome ↔ ∃ captures, r.Takes whole text (captures, []) := by
  constructor
  · intro matched
    obtain ⟨captures, found⟩ := Option.isSome_iff_exists.mp matched
    exact ⟨captures, firstWhole_takes found⟩
  · rintro ⟨captures, takes⟩
    rw [firstWhole, Option.isSome_map, List.find?_isSome]
    exact ⟨(captures, []), mem_results.mpr takes, rfl⟩

theorem results_assoc (whole text : List α) (a b c : Regex α) :
    ((a.seq b).seq c).results whole text = (a.seq (b.seq c)).results whole text := by
  have apart (before after : Taken α) : (before.then after).then = before.then ∘ after.then :=
    funext (then_assoc before after)
  simp only [Regex.results, List.flatMap_assoc, List.flatMap_map, List.map_flatMap,
    List.map_map, apart]
  rfl

/-- A pattern built up from the left matches as its parts in a row. -/
theorem results_foldl (whole text : List α) (r : Regex α) (parts : List (Regex α)) :
    (parts.foldl .seq r).results whole text = (r.seq (.sequence parts)).results whole text := by
  induction parts generalizing r with
  | nil =>
    have alone (taken : Taken α) : taken.then ([], taken.2) = taken := by simp [Taken.then]
    simp [Regex.sequence, Regex.results, alone]
  | cons next parts ih => rw [List.foldl_cons, ih, results_assoc]; rfl

end Matching

section Parsing

def code (c : Char) : UInt8 := UInt8.ofNat c.toNat

/-- The place of the parser, but for the groups it is in. -/
inductive ParseMode where
  | plain
  | escaped
  | opened
  | set (negated : Bool) (members : List UInt8)
  | setEscaped (negated : Bool) (members : List UInt8)

/-- A pattern being read: the parts before each open group, the part read since, and the
    place of the parser. -/
structure Reading where
  outer : List (Regex UInt8) := []
  regex : Regex UInt8 := .empty
  mode : ParseMode := .plain

def Reading.add (p : Reading) (r : Regex UInt8) : Reading :=
  { p with regex := .seq p.regex r, mode := .plain }

def isWord (c : UInt8) : Bool := (Char.ofNat c.toNat).isAlphanum || c == code '_'

/-- The characters with a meaning outside this part of ECMAScript, or with none alone. -/
def isUnsupported (c : UInt8) : Bool := (".*?{}|]".toList.map code).contains c

def Reading.plain (p : Reading) (c : UInt8) : Option Reading :=
  if c = code '\\' then some { p with mode := .escaped }
  else if c = code '^' then some (p.add .start)
  else if c = code '$' then some (p.add .stop)
  else if c = code '(' then some { p with outer := p.regex :: p.outer, regex := .empty }
  else if c = code ')' then
    match p.outer with
    | [] => none
    | before :: outer => some { p with outer := outer, regex := .seq before (.group p.regex) }
  else if c = code '[' then some { p with mode := .opened }
  else if c = code '+' then
    match p.regex with
    | .seq before (.chars set) => some { p with regex := .seq before (.plus set) }
    | _ => none
  else if isUnsupported c then none
  else some (p.add (.chars ⟨false, [c]⟩))

def Reading.inSet (p : Reading) (negated : Bool) (members : List UInt8) (c : UInt8) :
    Option Reading :=
  if c = code ']' then some (p.add (.chars ⟨negated, members⟩))
  else if c = code '\\' then some { p with mode := .setEscaped negated members }
  else if c = code '[' ∨ c = code '-' then none
  else some { p with mode := .set negated (members ++ [c]) }

def Reading.step (p : Reading) (c : UInt8) : Option Reading :=
  match p.mode with
  | .plain => p.plain c
  | .escaped => if isWord c then none else some (p.add (.chars ⟨false, [c]⟩))
  | .opened =>
    if c = code '^' then some { p with mode := .set true [] } else p.inSet false [] c
  | .set negated members => p.inSet negated members c
  | .setEscaped negated members =>
    if isWord c then none else some { p with mode := .set negated (members ++ [c]) }

/-- The pattern with this text, if the text is one of the part of ECMAScript above. -/
def Regex.parse (pattern : List UInt8) : Option (Regex UInt8) :=
  match pattern.foldlM Reading.step {} with
  | some ⟨[], r, .plain⟩ => some r
  | _ => none

/-- The captures of a text that a pattern matches as a whole. -/
def regexMatch (pattern text : List UInt8) : Option (List (List UInt8)) :=
  (Regex.parse pattern).bind (·.fullMatch text)

end Parsing

end CppMcp.Lib
