import CppMcp.Server.Expansion
import Mathlib.Data.List.TakeWhile

namespace CppMcp

open Lib

/-- A closing brace: whether it closes one, and the text since the last brace. -/
structure Closing where
  opened : Bool
  text : Bytes
deriving DecidableEq

def closings : Bool → Bytes → Bytes → List Closing
  | _, _, [] => []
  | opened, text, c :: rest =>
    if isByte '{' c then closings true [] rest
    else if isByte '}' c then ⟨opened, text⟩ :: closings false [] rest
    else closings opened (text ++ [c]) rest

/-- The text in braces, if the step writes a group for it. -/
def PatternLoop.written (s : PatternLoop) (c : UInt8) : List Bytes :=
  if isByte '}' c && s.inVar && !s.var.isEmpty then [s.var] else []

/-- The texts whose braces produce the groups of the pattern. -/
def groupVariables : PatternLoop → Bytes → List Bytes
  | _, [] => []
  | s, c :: rest => s.written c ++ groupVariables (s.step c) rest

/-- The variable that a text in braces names. -/
def variableName (text : Bytes) : Bytes := text.dropWhile (!isNameByte ·)

/-- The names are those of the variables that produce the groups, one for each group. -/
def Aligned (tpl : Bytes) : Prop :=
  ∃ r, Regex.parse (uriTemplateToRegex tpl) = some r ∧
    r.groups = (templateNames [] tpl).length ∧
    templateNames [] tpl = (groupVariables {} tpl).map variableName

def Closing.writesGroup (c : Closing) : Bool := c.opened && !c.text.isEmpty

def Closing.givesName (c : Closing) : Bool := !(variableName c.text).isEmpty

theorem variableName_append (text : Bytes) (c : UInt8) :
    variableName (text ++ [c]) =
      if variableName text ≠ [] ∨ isNameByte c then variableName text ++ [c]
      else variableName text := by
  unfold variableName
  rw [List.dropWhile_append]
  cases skipped : text.dropWhile (!isNameByte ·) with
  | nil => cases own : isNameByte c <;> simp [own]
  | cons b name => simp

theorem opening_not_closing {c : UInt8} (opens : isByte '{' c = true) : isByte '}' c = false := by
  rw [(isByte_iff (by decide) c).mp opens]
  rfl

/-- The extraction loop goes by the text since the last brace. -/
theorem templateNames_closings (opened : Bool) (text rest : Bytes) :
    templateNames (variableName text) rest =
      ((closings opened text rest).filter Closing.givesName).map fun c => variableName c.text := by
  induction rest generalizing opened text with
  | nil => rfl
  | cons c rest ih =>
    unfold templateNames closings
    by_cases opens : isByte '{' c
    · simp only [opens, if_true]
      exact ih true []
    by_cases closes : isByte '}' c
    · have next : templateNames [] rest = _ := ih false []
      simp only [opens, closes, if_true, if_false, Bool.false_eq_true, List.filter_cons,
        Closing.givesName]
      by_cases unnamed : variableName text = []
      · simpa [unnamed] using next
      · simpa [unnamed] using next
    · simp only [opens, closes, if_false, Bool.false_eq_true]
      rw [← ih opened (text ++ [c]), variableName_append]
      split <;> rfl

/-- The pattern builder goes by whether the last brace opened. -/
theorem groupVariables_closings {s : PatternLoop} {text : Bytes}
    (agrees : s.inVar = true → s.var = text) (rest : Bytes) :
    groupVariables s rest =
      ((closings s.inVar text rest).filter Closing.writesGroup).map Closing.text := by
  induction rest generalizing s text with
  | nil => rfl
  | cons c rest ih =>
    unfold groupVariables closings PatternLoop.written PatternLoop.step
    by_cases opens : isByte '{' c
    · have next := @ih { s with inVar := true, var := [] } [] fun _ => rfl
      simpa [opens, opening_not_closing opens] using next
    by_cases closes : isByte '}' c
    · have next (pattern var : Bytes) : groupVariables ⟨pattern, var, false⟩ rest = _ :=
        @ih ⟨pattern, var, false⟩ [] fun inside => by cases inside
      cases inside : s.inVar with
      | false => simp [opens, closes, next, Closing.writesGroup]
      | true =>
        cases read : text with
        | nil => simp [opens, closes, next, Closing.writesGroup, agrees inside, read]
        | cons b text => simp [opens, closes, next, Closing.writesGroup, agrees inside, read]
    · cases inside : s.inVar with
      | false =>
        -- Outside braces the text grows, and the loop keeps none of it.
        have next (pattern : Bytes) : groupVariables ⟨pattern, s.var, false⟩ rest = _ :=
          @ih ⟨pattern, s.var, false⟩ (text ++ [c]) fun inside => by cases inside
        cases isMeta c <;> simp [opens, closes, next]
      | true =>
        have next := @ih { s with var := s.var ++ [c] } (text ++ [c])
          fun inside => by rw [agrees inside]
        simpa [opens, closes, inside] using next

theorem groups_foldl {α : Type} (r : Regex α) (parts : List (Regex α)) :
    (parts.foldl .seq r).groups = r.groups + (parts.map Regex.groups).sum := by
  induction parts generalizing r with
  | nil => rfl
  | cons part rest ih =>
    rw [List.foldl_cons, ih]
    simp [Regex.groups, Nat.add_assoc]

theorem groups_written (s : PatternLoop) (tpl : Bytes) :
    (((templatePieces s.name tpl).map TemplatePiece.regex).map Regex.groups).sum =
      (groupVariables s tpl).length := by
  induction tpl generalizing s with
  | nil => rfl
  | cons c rest ih =>
    rw [groupVariables, List.length_append, ← ih]
    unfold PatternLoop.name PatternLoop.written PatternLoop.step
    by_cases opens : isByte '{' c
    · simp [templatePieces, opens, opening_not_closing opens]
    by_cases closes : isByte '}' c
    · cases s.inVar <;> cases s.var <;>
        simp [templatePieces, opens, closes, TemplatePiece.regex, Regex.groups]
    cases s.inVar <;> cases isMeta c <;>
      simp [templatePieces, opens, closes, TemplatePiece.regex, Regex.groups]

theorem templateRegex_groups (tpl : Bytes) :
    (templateRegex tpl).groups = (groupVariables {} tpl).length := by
  have written : (((templatePieces none tpl).map TemplatePiece.regex).map Regex.groups).sum = _ :=
    groups_written {} tpl
  rw [templateRegex, Regex.groups, groups_foldl]
  simpa [Regex.groups] using written

/-- A brace that closes one writes a group for a name, and any other follows no name. -/
def Closing.Sound (c : Closing) : Prop :=
  (c.opened = true → c.text ≠ [] → c.text.any isNameByte = true) ∧
    (c.opened = false → c.text.any isNameByte = false)

instance (c : Closing) : Decidable c.Sound := inferInstanceAs (Decidable (_ ∧ _))

theorem givesName_eq (c : Closing) : c.givesName = c.text.any isNameByte := by
  rw [Bool.eq_iff_iff]
  simp [Closing.givesName, variableName, List.dropWhile_eq_nil_iff]

theorem sound_iff (c : Closing) : c.Sound ↔ c.givesName = c.writesGroup := by
  rw [givesName_eq]
  unfold Closing.Sound Closing.writesGroup
  cases c.opened with
  | false => simp
  | true =>
    cases c.text with
    | nil => simp
    | cons b text => simp

theorem filter_agree {α : Type} {entries : List α} {p q : α → Bool}
    (implied : ∀ a ∈ entries, p a = true → q a = true)
    (even : (entries.filter q).length = (entries.filter p).length) :
    ∀ a ∈ entries, q a = p a := by
  have among : (entries.filter q).filter p = entries.filter p := by
    rw [List.filter_filter]
    refine List.filter_congr fun a member => ?_
    cases held : p a with
    | false => rfl
    | true => exact implied a member held
  have all : (entries.filter q).filter p = entries.filter q :=
    List.filter_sublist.eq_of_length (by rw [among, even])
  intro a member
  cases held : q a with
  | false =>
    cases other : p a with
    | false => rfl
    | true => rw [← held, implied a member other]
  | true => exact (List.filter_eq_self.mp all a (List.mem_filter.mpr ⟨member, held⟩)).symm

theorem aligned_iff (tpl : Bytes) :
    Aligned tpl ↔ templateNames [] tpl = (groupVariables {} tpl).map variableName := by
  constructor
  · rintro ⟨_, _, _, same⟩
    exact same
  · intro same
    refine ⟨templateRegex tpl, parse_template tpl, ?_, same⟩
    rw [templateRegex_groups, same, List.length_map]

theorem aligned_sound (tpl : Bytes) : Aligned tpl ↔ ∀ c ∈ closings false [] tpl, c.Sound := by
  have names : templateNames [] tpl = _ := templateNames_closings false [] tpl
  have groups : groupVariables {} tpl =
      ((closings false [] tpl).filter Closing.writesGroup).map Closing.text :=
    groupVariables_closings (fun inside => by cases inside) tpl
  rw [aligned_iff, names, groups, List.map_map]
  constructor
  · intro same c member
    rw [sound_iff]
    refine filter_agree (fun c member writes => ?_) ?_ c member
    · have listed : variableName c.text ∈ ((closings false [] tpl).filter Closing.givesName).map
          fun c => variableName c.text := by
        rw [same]
        exact List.mem_map.mpr ⟨c, List.mem_filter.mpr ⟨member, writes⟩, rfl⟩
      obtain ⟨other, gives, own⟩ := List.mem_map.mp listed
      have named := (List.mem_filter.mp gives).2
      rwa [Closing.givesName, own] at named
    · simpa using congrArg List.length same
  · intro sound
    rw [List.filter_congr fun c member => (sound_iff c).mp (sound c member)]
    rfl

/-- In an aligned template each value is that of the group its name is the variable of. -/
theorem aligned_captures {tpl : Bytes} (aligned : Aligned tpl) {captures : List Bytes}
    {entry : Bytes × Bytes} (member : entry ∈ templateVariables (templateNames [] tpl) captures) :
    ∃ (i : Nat) (var : Bytes), (groupVariables {} tpl)[i]? = some var ∧
      captures[i]? = some entry.2 ∧ entry.1 = variableName var := by
  have zipped : entry ∈ (templateNames [] tpl).zip captures :=
    (mem_of_insertAll member).resolve_right List.not_mem_nil
  obtain ⟨i, here⟩ := List.mem_iff_getElem?.mp zipped
  obtain ⟨name, value⟩ := List.getElem?_zip_eq_some.mp here
  rw [(aligned_iff tpl).mp aligned, List.getElem?_map] at name
  obtain ⟨var, group, own⟩ := Option.map_eq_some_iff.mp name
  exact ⟨i, var, group, value, own.symm⟩

variable {υ : Type}

/-- Names and captures align unless a pair of braces holds no name or a brace that closes
    nothing follows one, and aligned captures reach a handler under their own names. -/
theorem names_align_when_sound (tpl : Bytes) :
    (Aligned tpl ↔ ∀ c ∈ closings false [] tpl, c.Sound) ∧
    ∀ (s : Server υ) (entry : TemplateEntry υ) (id : RequestId) (params : Json)
      (sessionId : SessionId) (uri : String), Aligned tpl → entry.key = tpl →
      getStringParam params "uri" = .ok uri → s.handlers.resources.lookup uri = none →
      selectTemplate s.handlers uri = some entry →
      ∃ captures captured,
        regexMatch (uriTemplateToRegex tpl) uri.toUTF8.toList = some captures ∧
        (handleResourcesRead id params sessionId).run.run s =
          (entry.read id uri captured sessionId).run.run s ∧
        ∀ given ∈ captured, ∃ (i : Nat) (var : Bytes), (groupVariables {} tpl)[i]? = some var ∧
          captures[i]? = some given.2 ∧ given.1 = variableName var := by
  refine ⟨aligned_sound tpl, ?_⟩
  intro s entry id params sessionId uri aligned keyed named unregistered selected
  obtain ⟨captures, matched, ran⟩ := resourcesRead_selects named unregistered selected id sessionId
  rw [keyed] at matched ran
  exact ⟨captures, _, (regexMatch_template ..).trans matched, ran,
    fun entry member => aligned_captures aligned member⟩

theorem oslo_captured :
    ∃ captures captured,
      regexMatch (uriTemplateToRegex weatherTemplate.text)
        "weather://Oslo/current".toUTF8.toList = some captures ∧
      (handleResourcesRead (.int 1) (.object [("uri", .string "weather://Oslo/current")])
        []).run.run weatherServer =
          (weatherEntry.read (.int 1) "weather://Oslo/current" captured []).run.run weatherServer ∧
      ∀ given ∈ captured, ∃ (i : Nat) (var : Bytes),
        (groupVariables {} weatherTemplate.text)[i]? = some var ∧
        captures[i]? = some given.2 ∧ given.1 = variableName var := by
  apply (names_align_when_sound weatherTemplate.text).2
  · exact (names_align_when_sound (υ := Unit) weatherTemplate.text).1.mpr (by decide)
  · exact weather_keyed
  · rfl
  · rfl
  · exact List.find?_cons_of_pos weather_matches

/-- In `a}{x}` a brace closes nothing: `x` is the only group, and its value is given as `a`. -/
theorem stray_brace_misaligns :
    ¬ Aligned (ascii "a\x7d\x7bx\x7d") ∧
      matchTemplate (ascii "a\x7d\x7bx\x7d") (ascii "a1") = some [(ascii "a", ascii "1")] := by
  refine ⟨?_, by decide⟩
  rintro ⟨r, parsed, even, same⟩
  exact absurd same (by decide)

end CppMcp
