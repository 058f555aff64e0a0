import CppMcp.Server.UriTemplate

namespace CppMcp

open Lib

/-- A part of a template: a character outside braces, or a variable. -/
inductive TemplatePart where
  | literal (b : UInt8)
  | variable (name : Bytes)
deriving DecidableEq

def TemplatePart.text : TemplatePart → Bytes
  | .literal b => [b]
  | .variable name => code '{' :: name ++ [code '}']

def TemplatePart.expand (value : Bytes → Bytes) : TemplatePart → Bytes
  | .literal b => [b]
  | .variable name => value name

def TemplatePart.name? : TemplatePart → Option Bytes
  | .literal _ => none
  | .variable name => some name

def TemplatePart.piece : TemplatePart → TemplatePiece
  | .literal b => .literal b
  | .variable _ => .variable

/-- A literal is no brace, and a name is a word. -/
def TemplatePart.Plain : TemplatePart → Prop
  | .literal b => isByte '{' b = false ∧ isByte '}' b = false
  | .variable name => name ≠ [] ∧ name.all isNameByte = true

instance (part : TemplatePart) : Decidable part.Plain :=
  match part with
  | .literal _ => inferInstanceAs (Decidable (_ ∧ _))
  | .variable _ => inferInstanceAs (Decidable (_ ∧ _))

/-- A well-formed template. -/
structure UriTemplate where
  parts : List TemplatePart
  plain : ∀ part ∈ parts, part.Plain
  distinct : (parts.filterMap TemplatePart.name?).Nodup

namespace UriTemplate

variable (t : UriTemplate)

def text : Bytes := t.parts.flatMap TemplatePart.text

def names : List Bytes := t.parts.filterMap TemplatePart.name?

/-- The template with its variables replaced by their values. -/
def expand (value : Bytes → Bytes) : Bytes := t.parts.flatMap (TemplatePart.expand value)

/-- The values may stand in a URI. -/
def Admits (value : Bytes → Bytes) : Prop :=
  ∀ name ∈ t.names, value name ≠ [] ∧ ∀ b ∈ value name, inSegment b = true

end UriTemplate

theorem name_no_brace {b : UInt8} (own : isNameByte b = true) :
    isByte '{' b = false ∧ isByte '}' b = false := by
  have other {c : Char} (small : c.toNat < 256) (brace : isNameByte (code c) = false) :
      isByte c b = false := by
    cases same : isByte c b with
    | false => rfl
    | true =>
      rw [(isByte_iff small b).mp same, brace] at own
      cases own
  exact ⟨other (by decide) (by decide), other (by decide) (by decide)⟩

theorem templatePieces_name {name : Bytes} (word : name.all isNameByte = true)
    (read rest : Bytes) :
    templatePieces (some read) (name ++ rest) = templatePieces (some (read ++ name)) rest := by
  induction name generalizing read with
  | nil => simp
  | cons b name ih =>
    obtain ⟨own, word⟩ := (Bool.and_eq_true ..).mp (List.all_cons ▸ word)
    obtain ⟨opens, closes⟩ := name_no_brace own
    simp [templatePieces, opens, closes, ih word]

theorem templateNames_name {name : Bytes} (word : name.all isNameByte = true)
    (read rest : Bytes) :
    templateNames read (name ++ rest) = templateNames (read ++ name) rest := by
  induction name generalizing read with
  | nil => simp
  | cons b name ih =>
    obtain ⟨own, word⟩ := (Bool.and_eq_true ..).mp (List.all_cons ▸ word)
    obtain ⟨opens, closes⟩ := name_no_brace own
    simp [templateNames, opens, closes, own, ih word]

theorem text_variable (name rest : Bytes) :
    (TemplatePart.variable name).text ++ rest = code '{' :: (name ++ code '}' :: rest) := by
  simp [TemplatePart.text]

theorem templatePieces_text {parts : List TemplatePart} (plain : ∀ part ∈ parts, part.Plain) :
    templatePieces none (parts.flatMap TemplatePart.text) = parts.map TemplatePart.piece := by
  induction parts with
  | nil => rfl
  | cons part rest ih =>
    obtain ⟨own, later⟩ := List.forall_mem_cons.mp plain
    rw [List.flatMap_cons, List.map_cons, ← ih later]
    cases part with
    | literal b => simp [TemplatePart.text, templatePieces, own.1, own.2, TemplatePart.piece]
    | «variable» name =>
      have opens (rest : Bytes) : templatePieces none (code '{' :: rest) =
          templatePieces (some []) rest := rfl
      rw [text_variable, opens, templatePieces_name own.2]
      cases name with
      | nil => exact absurd rfl own.1
      | cons b name => rfl

/-- The extraction loop drops the literal text in front of a variable. -/
theorem templateNames_text {parts : List TemplatePart} (plain : ∀ part ∈ parts, part.Plain)
    (read : Bytes) :
    templateNames read (parts.flatMap TemplatePart.text) =
      parts.filterMap TemplatePart.name? := by
  induction parts generalizing read with
  | nil => rfl
  | cons part rest ih =>
    obtain ⟨own, later⟩ := List.forall_mem_cons.mp plain
    cases part with
    | literal b =>
      -- The loop may keep the byte, and the next opening brace forgets it.
      have literal (rest : Bytes) : ∃ read', templateNames read (b :: rest) =
          templateNames read' rest := by
        by_cases kept : read ≠ [] ∨ isNameByte b
        · exact ⟨read ++ [b], by simp [templateNames, own.1, own.2, kept]⟩
        · exact ⟨read, by simp [templateNames, own.1, own.2, kept]⟩
      obtain ⟨read', next⟩ := literal (rest.flatMap TemplatePart.text)
      exact next.trans (ih later read')
    | «variable» name =>
      have opens (rest : Bytes) : templateNames read (code '{' :: rest) =
          templateNames [] rest := rfl
      have closes (rest : Bytes) : templateNames name (code '}' :: rest) =
          name :: templateNames [] rest := by
        cases name with
        | nil => exact absurd rfl own.1
        | cons b name => rfl
      rw [List.flatMap_cons, text_variable, opens, templateNames_name own.2, List.nil_append,
        closes, ih later]
      rfl

theorem filled_length {parts : List TemplatePart} {values : List Bytes} {uri : Bytes}
    (filled : Filled (parts.map TemplatePart.piece) values uri) :
    (parts.filterMap TemplatePart.name?).length = values.length := by
  induction parts generalizing values uri with
  | nil => cases filled; rfl
  | cons part rest ih =>
    cases part with
    | literal b =>
      cases filled with
      | literal later => exact ih later
    | «variable» name =>
      cases filled with
      | «variable» some inside later => exact congrArg (· + 1) (ih later)

/-- Values fill a template to its expansion, and to nothing else. -/
theorem filled_expand {parts : List TemplatePart} {value : Bytes → Bytes} {uri : Bytes} :
    Filled (parts.map TemplatePart.piece) ((parts.filterMap TemplatePart.name?).map value) uri ↔
      (∀ name ∈ parts.filterMap TemplatePart.name?,
        value name ≠ [] ∧ ∀ b ∈ value name, inSegment b = true) ∧
      parts.flatMap (TemplatePart.expand value) = uri := by
  induction parts generalizing uri with
  | nil =>
    constructor
    · rintro ⟨⟩
      exact ⟨by simp, rfl⟩
    · rintro ⟨_, rfl⟩
      exact .nil
  | cons part rest ih =>
    cases part with
    | literal b =>
      constructor
      · intro filled
        cases filled with
        | literal later => exact ⟨(ih.mp later).1, congrArg (b :: ·) (ih.mp later).2⟩
      · rintro ⟨admitted, rfl⟩
        exact .literal (ih.mpr ⟨admitted, rfl⟩)
    | «variable» name =>
      constructor
      · intro filled
        cases filled with
        | «variable» some inside later =>
          obtain ⟨admitted, same⟩ := ih.mp later
          exact ⟨List.forall_mem_cons.mpr ⟨⟨some, inside⟩, admitted⟩,
            congrArg (value name ++ ·) same⟩
      · rintro ⟨admitted, rfl⟩
        obtain ⟨⟨some, inside⟩, admitted⟩ := List.forall_mem_cons.mp admitted
        exact .variable some inside (ih.mpr ⟨admitted, rfl⟩)

/-- The value of a variable in the map that a handler is given. -/
def valueIn (captured : List (Bytes × Bytes)) (name : Bytes) : Bytes :=
  (captured.lookup name).getD []

theorem valueIn_names {names values : List Bytes} (distinct : names.Nodup)
    (even : names.length = values.length) :
    names.map (valueIn (templateVariables names values)) = values := by
  have keys : (names.zip values).map Prod.fst = names := List.map_fst_zip even.le
  have found : ∀ entry ∈ names.zip values,
      valueIn (templateVariables names values) entry.1 = entry.2 := by
    intro entry member
    have instances : (List.instBEq : BEq Bytes) = instBEqOfDecidableEq :=
      lawful_beq_subsingleton _ _
    rw [valueIn, templateVariables, instances,
      lookup_insertAll (keys.symm ▸ distinct) member, Option.getD_some]
  calc names.map (valueIn (templateVariables names values))
      = ((names.zip values).map Prod.fst).map (valueIn (templateVariables names values)) := by
        rw [keys]
    _ = (names.zip values).map Prod.snd := by
        rw [List.map_map]
        exact List.map_congr_left found
    _ = values := List.map_snd_zip even.ge

theorem keys_templateVariables {names values : List Bytes} (distinct : names.Nodup)
    (even : names.length = values.length) :
    ((templateVariables names values).map Prod.fst).Perm names := by
  have keys : (names.zip values).map Prod.fst = names := List.map_fst_zip even.le
  have own : ((names.zip values).map Prod.fst ++
      ([] : List (Bytes × Bytes)).map Prod.fst).Nodup := by
    rwa [keys, List.map_nil, List.append_nil]
  have written := keys_insertAll own
  rwa [keys, List.map_nil, List.append_nil] at written

section
variable (t : UriTemplate)

theorem templatePieces_template :
    templatePieces none t.text = t.parts.map TemplatePart.piece :=
  templatePieces_text t.plain

theorem templateNames_template : templateNames [] t.text = t.names :=
  templateNames_text t.plain []

/-- The captures of a match, under their names, give the URI back. -/
theorem captures_expand {uri : Bytes} {values : List Bytes}
    (filled : Filled (t.parts.map TemplatePart.piece) values uri) :
    ((templateVariables t.names values).map Prod.fst).Perm t.names ∧
      t.Admits (valueIn (templateVariables t.names values)) ∧
      t.expand (valueIn (templateVariables t.names values)) = uri := by
  have even := filled_length filled
  refine ⟨keys_templateVariables t.distinct even, filled_expand.mp ?_⟩
  exact (valueIn_names t.distinct even).symm ▸ filled

theorem template_matches (uri : Bytes) :
    (regexMatch (uriTemplateToRegex t.text) uri).isSome ↔
      ∃ value, t.Admits value ∧ t.expand value = uri := by
  rw [regexMatch_template, templatePieces_template, matchPieces_isSome]
  constructor
  · rintro ⟨values, filled⟩
    exact ⟨_, (captures_expand t filled).2⟩
  · rintro ⟨value, admitted⟩
    exact ⟨t.names.map value, filled_expand.mpr admitted⟩

variable {υ : Type}

/-- A template matches what it expands to, and a handler is given the values that expand to
    the URI. -/
theorem matching_inverts_expansion :
    (∀ uri : Bytes, (regexMatch (uriTemplateToRegex t.text) uri).isSome ↔
      ∃ value, t.Admits value ∧ t.expand value = uri) ∧
    ∀ (s : Server υ) (entry : TemplateEntry υ) (id : RequestId) (params : Json)
      (sessionId : SessionId) (uri : String),
      entry.key = t.text → getStringParam params "uri" = .ok uri →
      s.handlers.resources.lookup uri = none → selectTemplate s.handlers uri = some entry →
      ∃ captured,
        (handleResourcesRead id params sessionId).run.run s =
          (entry.read id uri captured sessionId).run.run s ∧
        (captured.map Prod.fst).Perm t.names ∧ t.Admits (valueIn captured) ∧
        t.expand (valueIn captured) = uri.toUTF8.toList := by
  refine ⟨template_matches t, ?_⟩
  intro s entry id params sessionId uri keyed named unregistered selected
  obtain ⟨captures, matched, ran⟩ := resourcesRead_selects named unregistered selected id sessionId
  rw [keyed, templatePieces_template] at matched
  rw [keyed, templateNames_template] at ran
  exact ⟨_, ran, captures_expand t (matchPieces_filled matched)⟩

end

/-- `weather://{city}/current` -/
def weatherTemplate : UriTemplate where
  parts := (ascii "weather://").map .literal ++ [.variable (ascii "city")] ++
    (ascii "/current").map .literal
  plain := by decide
  distinct := by decide

def weatherEntry : TemplateEntry Unit :=
  ("weather://{city}/current", ⟨"weather", none, "weather://{city}/current", none, none⟩,
    fun _ _ _ => pure {})

def weatherServer : Server Unit where
  user := ()
  registry := { resourceTemplates := [weatherEntry] }

theorem weather_keyed : weatherEntry.key = weatherTemplate.text := by
  rw [TemplateEntry.key, toUTF8_toList]
  decide

theorem weather_matches : weatherEntry.matches "weather://Oslo/current" = true := by
  rw [TemplateEntry.matches_eq, weather_keyed, toUTF8_toList]
  decide

theorem weather_in_oslo :
    ∃ captured,
      (handleResourcesRead (.int 1) (.object [("uri", .string "weather://Oslo/current")])
        []).run.run weatherServer =
          (weatherEntry.read (.int 1) "weather://Oslo/current" captured []).run.run
            weatherServer ∧
      (captured.map Prod.fst).Perm weatherTemplate.names ∧
      weatherTemplate.Admits (valueIn captured) ∧
      weatherTemplate.expand (valueIn captured) = "weather://Oslo/current".toUTF8.toList := by
  apply (matching_inverts_expansion weatherTemplate).2 weatherServer weatherEntry
  · exact weather_keyed
  · rfl
  · rfl
  · exact List.find?_cons_of_pos weather_matches

end CppMcp
