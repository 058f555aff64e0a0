import CppMcp.Lib.Regex
import CppMcp.Server.Handlers

namespace CppMcp

open Lib

def metaCharacters : List Char := ".+*?()[]{}|^$\\".toList

def isMeta (c : UInt8) : Bool := metaCharacters.any (isByte · c)

/-- The variables of the loop of `uri_template_to_regex`. -/
structure PatternLoop where
  pattern : Bytes := ascii "^"
  var : Bytes := []
  inVar : Bool := false

def PatternLoop.step (s : PatternLoop) (c : UInt8) : PatternLoop :=
  if isByte '{' c then { s with inVar := true, var := [] }
  else if isByte '}' c then
    { s with
      pattern := if s.inVar && !s.var.isEmpty then s.pattern ++ ascii "([^/\\?\\#]+)" else s.pattern
      inVar := false }
  else if s.inVar then { s with var := s.var ++ [c] }
  else if isMeta c then { s with pattern := s.pattern ++ ascii "\\" ++ [c] }
  else { s with pattern := s.pattern ++ [c] }

/-- The text that `uri_template_to_regex` compiles. -/
def uriTemplateToRegex (tpl : Bytes) : Bytes :=
  (tpl.foldl PatternLoop.step {}).pattern ++ ascii "$"

def TemplatePiece.text : TemplatePiece → Bytes
  | .literal b => if isMeta b then ascii "\\" ++ [b] else [b]
  | .variable => ascii "([^/\\?\\#]+)"

/-- The variable that is being read, if one is. -/
def PatternLoop.name (s : PatternLoop) : Option Bytes := if s.inVar then some s.var else none

theorem pattern_pieces (s : PatternLoop) (tpl : Bytes) :
    (tpl.foldl PatternLoop.step s).pattern =
      s.pattern ++ (templatePieces s.name tpl).flatMap TemplatePiece.text := by
  induction tpl generalizing s with
  | nil => simp [templatePieces]
  | cons c rest ih =>
    rw [List.foldl_cons, ih]
    unfold PatternLoop.step PatternLoop.name
    by_cases opens : isByte '{' c
    · simp [templatePieces, opens]
    by_cases closes : isByte '}' c
    · cases s.inVar <;> cases s.var <;>
        simp [templatePieces, opens, closes, TemplatePiece.text]
    cases s.inVar with
    | true => simp [templatePieces, opens, closes]
    | false =>
      cases special : isMeta c <;>
        simp [templatePieces, opens, closes, special, TemplatePiece.text]

/-- The pattern that the text of a piece stands for. -/
def TemplatePiece.regex : TemplatePiece → Regex UInt8
  | .literal b => .chars ⟨false, [b]⟩
  | .variable => .group (.seq .empty (.plus ⟨true, ascii "/?#"⟩))

theorem isByte_iff {c : Char} (small : c.toNat < 256) (b : UInt8) :
    isByte c b = true ↔ b = code c := by
  rw [isByte, beq_iff_eq, ← UInt8.toNat_inj, code, UInt8.toNat_ofNat', Nat.mod_eq_of_lt small]

theorem isMeta_iff (b : UInt8) : isMeta b = true ↔ b ∈ metaCharacters.map code := by
  have all : metaCharacters.all (·.toNat < 256) = true := by decide
  have small : ∀ c ∈ metaCharacters, c.toNat < 256 := by simpa using all
  rw [isMeta, List.any_eq_true, List.mem_map]
  constructor
  · rintro ⟨c, member, same⟩
    exact ⟨c, member, ((isByte_iff (small c member) b).mp same).symm⟩
  · rintro ⟨c, member, same⟩
    exact ⟨c, member, (isByte_iff (small c member) b).mpr same.symm⟩

/-- An escaped metacharacter stands for itself, and so does any other character. -/
theorem reads_literal (outer : List (Regex UInt8)) (r : Regex UInt8) (b : UInt8) :
    (TemplatePiece.literal b).text.foldlM Reading.step ⟨outer, r, .plain⟩ =
      some ⟨outer, .seq r (.chars ⟨false, [b]⟩), .plain⟩ := by
  cases special : isMeta b with
  | true =>
    have text : (TemplatePiece.literal b).text = ascii "\\" ++ [b] := if_pos special
    have unnamed : (metaCharacters.map code).all (!isWord ·) = true := by decide
    have escaped : isWord b = false := by
      simpa using List.all_eq_true.mp unnamed b ((isMeta_iff b).mp special)
    rw [text]
    change Reading.step ⟨outer, r, .escaped⟩ b >>= some = _
    simp [Reading.step, escaped, Reading.add]
  | false =>
    have text : (TemplatePiece.literal b).text = [b] := if_neg (by simp [special])
    have ordinary : b ∉ metaCharacters.map code := fun member => by
      rw [(isMeta_iff b).mpr member] at special
      cases special
    have other (c : Char) (h : code c ∈ metaCharacters.map code) : b ≠ code c :=
      fun same => ordinary (same ▸ h)
    have within : (".*?{}|]".toList.map code).all
        ((metaCharacters.map code).contains ·) = true := by decide
    have supported : isUnsupported b = false := by
      cases unsupported : isUnsupported b with
      | false => rfl
      | true =>
        have listed := List.all_eq_true.mp within b (List.contains_iff_mem.mp unsupported)
        exact absurd (List.contains_iff_mem.mp listed) ordinary
    rw [text]
    change Reading.plain ⟨outer, r, .plain⟩ b >>= some = _
    simp [Reading.plain, other '\\' (by decide), other '^' (by decide), other '$' (by decide),
      other '(' (by decide), other ')' (by decide), other '[' (by decide), other '+' (by decide),
      supported, Reading.add]

theorem reads_piece (outer : List (Regex UInt8)) (r : Regex UInt8) (piece : TemplatePiece) :
    piece.text.foldlM Reading.step ⟨outer, r, .plain⟩ =
      some ⟨outer, .seq r piece.regex, .plain⟩ := by
  cases piece with
  | literal b => exact reads_literal outer r b
  | «variable» => rfl

theorem reads_pieces (outer : List (Regex UInt8)) (r : Regex UInt8) (pieces : List TemplatePiece) :
    (pieces.flatMap TemplatePiece.text).foldlM Reading.step ⟨outer, r, .plain⟩ =
      some ⟨outer, (pieces.map TemplatePiece.regex).foldl .seq r, .plain⟩ := by
  induction pieces generalizing r with
  | nil => rfl
  | cons piece rest ih =>
    rw [List.flatMap_cons, List.foldlM_append, reads_piece]
    exact ih (r.seq piece.regex)

def templateRegex (tpl : Bytes) : Regex UInt8 :=
  .seq (((templatePieces none tpl).map TemplatePiece.regex).foldl .seq (.seq .empty .start)) .stop

theorem parse_template (tpl : Bytes) :
    Regex.parse (uriTemplateToRegex tpl) = some (templateRegex tpl) := by
  have read : (uriTemplateToRegex tpl).foldlM Reading.step {} =
      some ⟨[], templateRegex tpl, .plain⟩ := by
    unfold uriTemplateToRegex
    rw [pattern_pieces, List.append_assoc, List.foldlM_append]
    change List.foldlM Reading.step ⟨[], .seq .empty .start, .plain⟩ _ = _
    rw [List.foldlM_append]
    change (List.foldlM Reading.step _ ((templatePieces none tpl).flatMap _) >>= _) = _
    rw [reads_pieces]
    rfl
  rw [Regex.parse, read]

theorem segment_has : CharSet.has ⟨true, ascii "/?#"⟩ = inSegment := by
  funext b
  have bytes : ascii "/?#" = [code '/', code '?', code '#'] := rfl
  have listed (c : Char) (small : c.toNat < 256) : (b == code c) = isByte c b := by
    rw [Bool.eq_iff_iff, beq_iff_eq, isByte_iff small]
  rw [bytes, CharSet.has, inSegment]
  simp only [List.contains_cons, List.contains_nil, listed '/' (by decide), listed '?' (by decide),
    listed '#' (by decide), Bool.or_false, Bool.bne_true, Bool.not_or, Bool.and_assoc]

/-- A variable takes what it can, and then less. -/
theorem results_variable (whole text : Bytes) :
    TemplatePiece.variable.regex.results whole text =
      ((List.range (text.takeWhile inSegment).length).reverse.map (· + 1)).map fun n =>
        ([text.take n], text.drop n) := by
  simp only [TemplatePiece.regex, Regex.results, segment_has, List.flatMap_singleton,
    List.map_map]
  apply List.map_congr_left
  intro k within
  have short := Nat.le_trans (List.mem_range.mp (List.mem_reverse.mp within))
    (List.takeWhile_prefix inSegment).length_le
  have run : text.length - (text.length - (k + 1)) = k + 1 := by omega
  simp [Taken.then, run]

theorem first_pieces (whole text : Bytes) (pieces : List TemplatePiece) :
    firstWhole ((Regex.sequence (pieces.map TemplatePiece.regex ++ [.stop])).results whole text) =
      matchPieces pieces text := by
  induction pieces generalizing text with
  | nil => cases text <;> simp [Regex.sequence, Regex.results, matchPieces, Taken.then, firstWhole]
  | cons piece rest ih =>
    have row : firstWhole ((Regex.sequence ((piece :: rest).map TemplatePiece.regex ++
        [.stop])).results whole text) = (piece.regex.results whole text).findSome? fun taken =>
          (matchPieces rest taken.2).map (taken.1 ++ ·) := by
      simp only [← ih]
      exact firstWhole_flatMap _ _
    rw [row]
    cases piece with
    | literal b =>
      cases text with
      | nil => rfl
      | cons c text =>
        by_cases same : b = c
        · simp [TemplatePiece.regex, Regex.results, CharSet.has, matchPieces, same]
        · have other : c ≠ b := Ne.symm same
          simp [TemplatePiece.regex, Regex.results, CharSet.has, matchPieces, same, other]
    | «variable» =>
      rw [results_variable, List.findSome?_map, matchPieces]
      rfl

/-- The values that the variables of a template have in a URI. -/
inductive Filled : List TemplatePiece → List Bytes → Bytes → Prop where
  | nil : Filled [] [] []
  | literal {b : UInt8} {pieces : List TemplatePiece} {values : List Bytes} {uri : Bytes}
      (rest : Filled pieces values uri) : Filled (.literal b :: pieces) values (b :: uri)
  | variable {value : Bytes} {pieces : List TemplatePiece} {values : List Bytes} {uri : Bytes}
      (some : value ≠ []) (inside : ∀ b ∈ value, inSegment b = true)
      (rest : Filled pieces values uri) :
      Filled (.variable :: pieces) (value :: values) (value ++ uri)

section
variable {whole text : Bytes} {taken : Taken UInt8}

theorem takes_literal {b : UInt8} :
    (TemplatePiece.literal b).regex.Takes whole text taken ↔
      text = b :: taken.2 ∧ taken.1 = [] := by
  have has (a : UInt8) : CharSet.has ⟨false, [b]⟩ a = true ↔ a = b := by simp [CharSet.has]
  rw [TemplatePiece.regex, takes_chars]
  constructor
  · rintro ⟨a, cut, own, none⟩
    exact ⟨(has a).mp own ▸ cut, none⟩
  · rintro ⟨cut, none⟩
    exact ⟨b, cut, (has b).mpr rfl, none⟩

theorem takes_variable :
    TemplatePiece.variable.regex.Takes whole text taken ↔
      ∃ run, text = run ++ taken.2 ∧ run ≠ [] ∧ (∀ b ∈ run, inSegment b = true) ∧
        taken.1 = [run] := by
  rw [TemplatePiece.regex, takes_group]
  constructor
  · rintro ⟨run, captures, cut, within, own⟩
    obtain ⟨before, after, begins, ends, same⟩ := takes_seq.mp within
    cases begins
    obtain ⟨run', cut', some, has, none⟩ := takes_plus.mp ends
    obtain ⟨rfl, left⟩ := Prod.ext_iff.mp same
    have rest : taken.2 = after.2 := left
    have single : run' = run := by
      apply List.append_cancel_right
      rw [← cut', ← rest]
      exact cut
    rw [segment_has, single] at has
    refine ⟨run, cut, single ▸ some, has, ?_⟩
    rw [own, Taken.then, none]
    rfl
  · rintro ⟨run, cut, some, inside, own⟩
    refine ⟨run, [], cut, takes_seq.mpr ⟨([], text), ([], taken.2), .empty, ?_, rfl⟩, own⟩
    rw [takes_plus, segment_has]
    exact ⟨run, cut, some, inside, rfl⟩

end

/-- A match of the pattern is a choice of values that gives the URI. -/
theorem takes_pieces {whole uri : Bytes} {pieces : List TemplatePiece} {values : List Bytes} :
    (Regex.sequence (pieces.map TemplatePiece.regex ++ [.stop])).Takes whole uri (values, []) ↔
      Filled pieces values uri := by
  induction pieces generalizing uri values with
  | nil =>
    constructor
    · intro takes
      obtain ⟨before, after, begins, ends, same⟩ := takes_seq.mp takes
      cases begins
      cases ends
      cases same
      exact .nil
    · rintro ⟨⟩
      exact .seq .stop .empty
  | cons piece rest ih =>
    constructor
    · intro takes
      obtain ⟨before, ⟨later, left⟩, begins, ends, same⟩ := takes_seq.mp takes
      obtain ⟨rfl, (rfl : [] = left)⟩ := Prod.mk.inj same
      have filled := ih.mp ends
      cases piece with
      | literal b =>
        obtain ⟨rfl, none⟩ := takes_literal.mp begins
        rw [none]
        exact .literal filled
      | «variable» =>
        obtain ⟨run, rfl, some, inside, own⟩ := takes_variable.mp begins
        rw [own]
        exact .variable some inside filled
    · intro filled
      cases filled with
      | @literal b _ _ uri later =>
        exact takes_seq.mpr ⟨([], uri), (values, []), takes_literal.mpr ⟨rfl, rfl⟩,
          ih.mpr later, rfl⟩
      | @«variable» run _ values uri some inside later =>
        exact takes_seq.mpr ⟨([run], uri), (values, []),
          takes_variable.mpr ⟨run, rfl, some, inside, rfl⟩, ih.mpr later, rfl⟩

/-- `matchPieces` is what `std::regex_match` does with the text of the pattern. -/
theorem regexMatch_template (tpl uri : Bytes) :
    regexMatch (uriTemplateToRegex tpl) uri = matchPieces (templatePieces none tpl) uri := by
  have begun : (Regex.seq .empty .start).results uri uri = [([], uri)] := by
    simp [Regex.results, Taken.then]
  have appended : templateRegex tpl = ((templatePieces none tpl).map TemplatePiece.regex ++
      [Regex.stop]).foldl .seq (.seq .empty .start) := by
    rw [List.foldl_append]
    rfl
  rw [regexMatch, parse_template, Option.bind_some, Regex.fullMatch, appended, results_foldl,
    ← first_pieces uri]
  have nothing : Taken.then (([], uri) : Taken UInt8) = id := rfl
  rw [Regex.results, begun, List.flatMap_cons, List.flatMap_nil, List.append_nil, nothing,
    List.map_id]

theorem matchPieces_filled {pieces : List TemplatePiece} {values : List Bytes} {uri : Bytes}
    (matched : matchPieces pieces uri = some values) : Filled pieces values uri := by
  rw [← first_pieces uri] at matched
  exact takes_pieces.mp (firstWhole_takes matched)

theorem matchPieces_isSome (pieces : List TemplatePiece) (uri : Bytes) :
    (matchPieces pieces uri).isSome ↔ ∃ values, Filled pieces values uri := by
  rw [← first_pieces uri, firstWhole_isSome]
  exact exists_congr fun values => takes_pieces

theorem loop_toList (bytes : ByteArray) (i : Nat) (read : List UInt8) :
    ByteArray.toList.loop bytes i read = read.reverse ++ bytes.data.toList.drop i := by
  fun_induction ByteArray.toList.loop bytes i read with
  | case1 i read inside ih =>
    have short : i < bytes.data.toList.length := inside
    have byte : bytes.get! i = bytes.data.toList[i] := getElem!_pos bytes.data i inside
    rw [ih, List.drop_eq_getElem_cons short, byte]
    simp
  | case2 i read outside =>
    have ended : bytes.data.toList.length ≤ i := Nat.le_of_not_lt outside
    rw [List.drop_of_length_le ended, List.append_nil]

/-- The bytes of a text, as an evaluation finds them. -/
theorem toUTF8_toList (s : String) : s.toUTF8.toList = s.toByteArray.data.toList :=
  loop_toList _ 0 []

section
variable {υ : Type}

abbrev TemplateEntry (υ : Type) := String × ResourceTemplate ×
  (String → List (Bytes × Bytes) → RequestContext → Handler υ ReadResourceResult)

def TemplateEntry.key (entry : TemplateEntry υ) : Bytes := entry.1.toUTF8.toList

def TemplateEntry.matches (entry : TemplateEntry υ) (uri : String) : Bool :=
  (regexMatch (uriTemplateToRegex entry.key) uri.toUTF8.toList).isSome

/-- The first template, in the order of the map, whose pattern the URI matches. -/
def selectTemplate (handlers : Registry υ) (uri : String) : Option (TemplateEntry υ) :=
  handlers.resourceTemplates.find? (TemplateEntry.matches · uri)

/-- The answer that a template's handler gives. -/
def TemplateEntry.read (entry : TemplateEntry υ) (id : RequestId) (uri : String)
    (captured : List (Bytes × Bytes)) (sessionId : SessionId) : ServerM υ Json := do
  let result ← call (entry.2.2 uri captured ⟨id, id, sessionId⟩)
  return makeSuccessResponse id result.toJson

theorem TemplateEntry.matches_eq (entry : TemplateEntry υ) (uri : String) :
    entry.matches uri =
      (matchPieces (templatePieces none entry.key) uri.toUTF8.toList).isSome := by
  rw [TemplateEntry.matches, regexMatch_template]

theorem findSome?_find? {α β : Type} (f : α → Option β) (entries : List α) :
    entries.findSome? f = (entries.find? fun entry => (f entry).isSome).bind f := by
  induction entries with
  | nil => rfl
  | cons entry rest ih =>
    rw [List.findSome?_cons, List.find?_cons]
    cases found : f entry with
    | none => exact ih
    | some b => exact found.symm

theorem findTemplate_selects (handlers : Registry υ) (uri : String) :
    findTemplate handlers uri = (selectTemplate handlers uri).bind fun entry =>
      (matchTemplate entry.key uri.toUTF8.toList).map fun captured => (captured, entry.2.2) := by
  have chosen : (fun entry : TemplateEntry υ => ((matchTemplate entry.key uri.toUTF8.toList).map
      fun captured => (captured, entry.2.2)).isSome) = (TemplateEntry.matches · uri) := by
    funext entry
    rw [Option.isSome_map, matchTemplate, Option.isSome_map, entry.matches_eq]
  exact (findSome?_find? _ _).trans (chosen ▸ rfl)

variable {s : Server υ} {params : Json} {uri : String}

/-- A URI that is not registered itself is served by the template found for it. -/
theorem resourcesRead_unregistered (named : getStringParam params "uri" = .ok uri)
    (unregistered : s.handlers.resources.lookup uri = none) (id : RequestId)
    (sessionId : SessionId) :
    (handleResourcesRead id params sessionId).run.run s =
      ((findTemplate s.handlers uri).elim (pure (notFound id ("Resource not found: " ++ uri)))
        fun found => do
          let result ← call (found.2 uri found.1 ⟨id, id, sessionId⟩)
          return makeSuccessResponse id result.toJson : ServerM υ Json).run.run s := by
  unfold handleResourcesRead
  rw [named]
  dsimp only
  rw [run_get_bind, unregistered]
  cases findTemplate s.handlers uri <;> rfl

theorem resourcesRead_selects {entry : TemplateEntry υ}
    (named : getStringParam params "uri" = .ok uri)
    (unregistered : s.handlers.resources.lookup uri = none)
    (selected : selectTemplate s.handlers uri = some entry) (id : RequestId)
    (sessionId : SessionId) :
    ∃ captures, matchPieces (templatePieces none entry.key) uri.toUTF8.toList = some captures ∧
      (handleResourcesRead id params sessionId).run.run s =
        (entry.read id uri (templateVariables (templateNames [] entry.key) captures)
          sessionId).run.run s := by
  have matched := List.find?_some (p := (TemplateEntry.matches · uri)) selected
  rw [entry.matches_eq] at matched
  obtain ⟨captures, found⟩ := Option.isSome_iff_exists.mp matched
  refine ⟨captures, found, ?_⟩
  rw [resourcesRead_unregistered named unregistered, findTemplate_selects, selected,
    Option.bind_some, matchTemplate, found]
  rfl

theorem resourcesRead_unmatched (named : getStringParam params "uri" = .ok uri)
    (unregistered : s.handlers.resources.lookup uri = none)
    (unmatched : selectTemplate s.handlers uri = none) (id : RequestId) (sessionId : SessionId) :
    (handleResourcesRead id params sessionId).run.run s =
      (.ok (notFound id ("Resource not found: " ++ uri)), s) := by
  rw [resourcesRead_unregistered named unregistered, findTemplate_selects, unmatched]
  rfl

end

end CppMcp
