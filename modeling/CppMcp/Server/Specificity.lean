import CppMcp.Server.Expansion
import Mathlib.Data.List.TakeWhile

namespace CppMcp

open Lib

variable {υ : Type}

/-- `register_resource_template` before the run, on a map in the byte order of its keys. -/
def Registry.registerResourceTemplate (registry : Registry υ) (uriTemplate : String)
    (templateDef : ResourceTemplate)
    (handler : String → List (Bytes × Bytes) → RequestContext → Handler υ ReadResourceResult) :
    Registry υ :=
  let keyed := registry.resourceTemplates.map fun entry => (TemplateEntry.key entry, entry)
  let entry : TemplateEntry υ := (uriTemplate, { templateDef with uriTemplate }, handler)
  { registry with resourceTemplates := (insertSorted entry.key entry keyed).map Prod.snd }

def Registry.register (registry : Registry υ) (entry : TemplateEntry υ) : Registry υ :=
  registry.registerResourceTemplate entry.1 entry.2.1 entry.2.2

def Registry.registerAll (registry : Registry υ) (registrations : List (TemplateEntry υ)) :
    Registry υ :=
  registrations.foldl Registry.register registry

theorem bytes_total (a b : Bytes) (notLess : ¬ a < b) (other : a ≠ b) : b < a := by
  rcases List.le_iff_lt_or_eq.mp (List.not_lt.mp notLess) with less | same
  · exact less
  · exact absurd same.symm other

/-- The keys of the templates, in the order of the map. -/
def Registry.templateKeys (registry : Registry υ) : List Bytes :=
  registry.resourceTemplates.map TemplateEntry.key

/-- A registration keeps the keys in order and adds no other key than its own. -/
theorem register_keys (registry : Registry υ) (entry : TemplateEntry υ) :
    ∃ keyed : List (Bytes × TemplateEntry υ), keyed.map Prod.fst = registry.templateKeys ∧
      (registry.register entry).templateKeys =
        (insertSorted entry.key (entry.1, { entry.2.1 with uriTemplate := entry.1 }, entry.2.2)
          keyed).map Prod.fst := by
  refine ⟨registry.resourceTemplates.map fun entry => (TemplateEntry.key entry, entry), ?_, ?_⟩
  · rw [List.map_map]
    rfl
  · unfold Registry.templateKeys Registry.register Registry.registerResourceTemplate
    rw [List.map_map]
    refine List.map_congr_left fun pair member => ?_
    rcases mem_of_insertSorted member with rfl | old
    · rfl
    · obtain ⟨other, _, rfl⟩ := List.mem_map.mp old
      rfl

theorem registered_keys (registrations : List (TemplateEntry υ)) {registry : Registry υ}
    (sorted : registry.templateKeys.Pairwise (· < ·)) :
    (registry.registerAll registrations).templateKeys.Pairwise (· < ·) ∧
      ∀ key ∈ (registry.registerAll registrations).templateKeys,
        key ∈ registrations.map TemplateEntry.key ∨ key ∈ registry.templateKeys := by
  induction registrations generalizing registry with
  | nil => exact ⟨sorted, fun key member => .inr member⟩
  | cons entry rest ih =>
    obtain ⟨keyed, before, after⟩ := register_keys registry entry
    have kept : (registry.register entry).templateKeys.Pairwise (· < ·) := by
      rw [after]
      exact sorted_insertSorted (fun _ _ _ => List.lt_trans) bytes_total _ _ (before ▸ sorted)
    obtain ⟨ordered, own⟩ := ih kept
    refine ⟨ordered, fun key member => ?_⟩
    rcases own key member with later | written
    · exact .inl (List.mem_cons_of_mem _ later)
    · rw [after] at written
      obtain ⟨pair, inside, rfl⟩ := List.mem_map.mp written
      rcases mem_of_insertSorted inside with rfl | old
      · exact .inl List.mem_cons_self
      · exact .inr (before ▸ List.mem_map.mpr ⟨pair, old, rfl⟩)

/-- The text of a template before its first variable. -/
def literalPrefix (tpl : Bytes) : Bytes := tpl.takeWhile (!isByte '{' ·)

/-- A URI that a template matches starts with the template's literal prefix, and is it when
    the template has no variable. -/
theorem prefix_of_filled {parts : List TemplatePart} (plain : ∀ part ∈ parts, part.Plain)
    {values : List Bytes} {uri : Bytes}
    (filled : Filled (parts.map TemplatePart.piece) values uri) :
    literalPrefix (parts.flatMap TemplatePart.text) <+: uri ∧
      ((∃ tail, parts.flatMap TemplatePart.text =
          literalPrefix (parts.flatMap TemplatePart.text) ++ code '{' :: tail) ∨
        literalPrefix (parts.flatMap TemplatePart.text) = uri) := by
  induction parts generalizing values uri with
  | nil =>
    cases filled
    exact ⟨List.prefix_rfl, .inr rfl⟩
  | cons part rest ih =>
    obtain ⟨own, later⟩ := List.forall_mem_cons.mp plain
    cases part with
    | literal b =>
      have next (text : Bytes) : literalPrefix (b :: text) = b :: literalPrefix text := by
        simp [literalPrefix, own.1]
      cases filled with
      | literal filled =>
        obtain ⟨starts, split⟩ := ih later filled
        have text : (TemplatePart.literal b :: rest).flatMap TemplatePart.text =
            b :: rest.flatMap TemplatePart.text := rfl
        rw [text, next]
        refine ⟨(List.prefix_cons_inj b).mpr starts, ?_⟩
        rcases split with ⟨tail, cut⟩ | whole
        · exact .inl ⟨tail, congrArg (b :: ·) cut⟩
        · exact .inr (congrArg (b :: ·) whole)
    | «variable» name =>
      have opens (text : Bytes) : literalPrefix (code '{' :: text) = [] := rfl
      rw [List.flatMap_cons, text_variable, opens]
      exact ⟨List.nil_prefix, .inl ⟨_, rfl⟩⟩

theorem append_lt_append (common a b : Bytes) : common ++ a < common ++ b ↔ a < b := by
  induction common with
  | nil => rfl
  | cons c common ih => rw [List.cons_append, List.cons_append, List.cons_lt_cons_self, ih]

/-- Of two templates that match, the one with the longer literal prefix comes first when the
    URI goes on after the shorter prefix with a byte below `{`. -/
theorem longer_first_iff {best other uri : Bytes} (starts : literalPrefix best <+: uri)
    (starts' : literalPrefix other <+: uri)
    (split : (∃ tail, other = literalPrefix other ++ code '{' :: tail) ∨
      literalPrefix other = uri)
    (shorter : (literalPrefix other).length < (literalPrefix best).length) :
    best < other ↔ ∀ b, uri[(literalPrefix other).length]? = some b → b < code '{' := by
  obtain ⟨tail, cut⟩ : ∃ tail, other = literalPrefix other ++ code '{' :: tail := by
    refine split.resolve_right fun whole => ?_
    have long := starts.length_le
    rw [← whole] at long
    omega
  obtain ⟨more, longer⟩ := List.prefix_of_prefix_length_le starts' starts shorter.le
  cases more with
  | nil =>
    rw [← longer, List.append_nil] at shorter
    omega
  | cons b more =>
    -- Where the shorter template has its brace, the longer one goes on with `b`.
    have own : b ≠ code '{' := by
      have member : b ∈ literalPrefix best := longer ▸ List.mem_append_right _ List.mem_cons_self
      have bare := List.mem_takeWhile_imp member
      rintro rfl
      cases bare
    have split : best = literalPrefix other ++ b :: (more ++ best.dropWhile (!isByte '{' ·)) := by
      calc best = literalPrefix best ++ best.dropWhile (!isByte '{' ·) :=
            List.takeWhile_append_dropWhile.symm
        _ = _ := by rw [← longer, List.append_assoc]; rfl
    have next : uri[(literalPrefix other).length]? = some b := by
      obtain ⟨rest, rfl⟩ := starts
      rw [← longer, List.append_assoc, List.getElem?_append_right (Nat.le_refl _), Nat.sub_self]
      rfl
    have compared := append_lt_append (literalPrefix other)
      (b :: (more ++ best.dropWhile (!isByte '{' ·))) (code '{' :: tail)
    rw [← split, ← cut, List.cons_lt_cons_iff] at compared
    rw [compared, next]
    simp [own]

/-- The matching template with the longest literal prefix. -/
structure MostSpecific (handlers : Registry υ) (uri : String) (best : TemplateEntry υ) :
    Prop where
  registered : best ∈ handlers.resourceTemplates
  matched : best.matches uri = true
  longest : ∀ other : TemplateEntry υ, other ∈ handlers.resourceTemplates →
    other.matches uri = true → (literalPrefix other.key).length ≤ (literalPrefix best.key).length

/-- After the prefix of any other matching template, the URI goes on with a byte below `{`. -/
def Unshadowed (handlers : Registry υ) (uri : String) (best : TemplateEntry υ) : Prop :=
  ∀ other : TemplateEntry υ, other ∈ handlers.resourceTemplates → other.matches uri = true →
    other.key ≠ best.key →
    ∀ b, uri.toUTF8.toList[(literalPrefix other.key).length]? = some b → b < code '{'

theorem matches_prefix {uri : String} {entry : TemplateEntry υ} {t : UriTemplate}
    (keyed : t.text = entry.key) (matched : entry.matches uri = true) :
    literalPrefix entry.key <+: uri.toUTF8.toList ∧
      ((∃ tail, entry.key = literalPrefix entry.key ++ code '{' :: tail) ∨
        literalPrefix entry.key = uri.toUTF8.toList) := by
  rw [entry.matches_eq, ← keyed, templatePieces_template, matchPieces_isSome] at matched
  obtain ⟨values, filled⟩ := matched
  rw [← keyed]
  exact prefix_of_filled t.plain filled

/-- The templates of a server, which keep their keys in order. -/
structure Registry.Keyed (handlers : Registry υ) : Prop where
  sorted : handlers.templateKeys.Pairwise (· < ·)
  wellFormed : ∀ key ∈ handlers.templateKeys, ∃ t : UriTemplate, t.text = key
  distinct : ∀ key ∈ handlers.templateKeys, ∀ other ∈ handlers.templateKeys,
    literalPrefix key = literalPrefix other → key = other

/-- The most specific template is selected when no matching one shadows it. -/
theorem selects_mostSpecific {handlers : Registry υ} (keyed : handlers.Keyed) {uri : String}
    {best : TemplateEntry υ} (specific : MostSpecific handlers uri best) :
    selectTemplate handlers uri = some best ↔ Unshadowed handlers uri best := by
  have asymm : ∀ a b : Bytes, a < b → ¬ b < a := fun a b => List.lt_asymm
  have inside {entry : TemplateEntry υ} (member : entry ∈ handlers.resourceTemplates) :
      entry.key ∈ handlers.templateKeys := List.mem_map.mpr ⟨entry, member, rfl⟩
  unfold selectTemplate Unshadowed
  rw [find?_ordered asymm (List.pairwise_map.mp keyed.sorted) specific.registered
    specific.matched]
  refine forall_congr' fun other => forall_congr' fun member => forall_congr' fun matched =>
    forall_congr' fun differs => ?_
  obtain ⟨t, text⟩ := keyed.wellFormed _ (inside specific.registered)
  obtain ⟨t', text'⟩ := keyed.wellFormed _ (inside member)
  obtain ⟨starts, _⟩ := matches_prefix text specific.matched
  obtain ⟨starts', split⟩ := matches_prefix text' matched
  refine longer_first_iff starts starts' split ?_
  refine Nat.lt_of_le_of_ne (specific.longest other member matched) fun even => differs ?_
  apply keyed.distinct _ (inside member) _ (inside specific.registered)
  exact (List.prefix_of_prefix_length_le starts' starts even.le).eq_of_length even

theorem keyed_registered {base : Registry υ} (empty : base.resourceTemplates = [])
    {registrations : List (TemplateEntry υ)}
    (wellFormed : ∀ entry ∈ registrations, ∃ t : UriTemplate, t.text = entry.key)
    (distinct : ∀ entry ∈ registrations, ∀ other ∈ registrations,
      literalPrefix entry.key = literalPrefix other.key → entry.key = other.key) :
    (base.registerAll registrations).Keyed := by
  have none : base.templateKeys = [] := by rw [Registry.templateKeys, empty, List.map_nil]
  have ordered : base.templateKeys.Pairwise (· < ·) := by
    rw [none]
    exact .nil
  obtain ⟨sorted, own⟩ := registered_keys registrations ordered
  have given {key : Bytes} (member : key ∈ (base.registerAll registrations).templateKeys) :
      ∃ entry ∈ registrations, entry.key = key := by
    rcases own key member with registered | old
    · exact List.mem_map.mp registered
    · rw [none] at old
      cases old
  refine ⟨sorted, fun key member => ?_, fun key member other member' same => ?_⟩
  · obtain ⟨entry, inside, rfl⟩ := given member
    exact wellFormed entry inside
  · obtain ⟨entry, inside, rfl⟩ := given member
    obtain ⟨entry', inside', rfl⟩ := given member'
    exact distinct entry inside entry' inside' same

theorem exists_longest {α : Type} (size : α → Nat) {entries : List α} {a : α}
    (member : a ∈ entries) : ∃ best ∈ entries, ∀ other ∈ entries, size other ≤ size best := by
  induction entries generalizing a with
  | nil => cases member
  | cons first rest ih =>
    cases rest with
    | nil => exact ⟨first, List.mem_cons_self, by simp⟩
    | cons second rest =>
      obtain ⟨best, inside, largest⟩ := ih List.mem_cons_self
      rcases Nat.le_total (size first) (size best) with below | above
      · exact ⟨best, List.mem_cons_of_mem _ inside, List.forall_mem_cons.mpr ⟨below, largest⟩⟩
      · exact ⟨first, List.mem_cons_self, List.forall_mem_cons.mpr
          ⟨Nat.le_refl _, fun other later => Nat.le_trans (largest other later) above⟩⟩

theorem exists_mostSpecific {handlers : Registry υ} {uri : String} {entry : TemplateEntry υ}
    (member : entry ∈ handlers.resourceTemplates) (matched : entry.matches uri = true) :
    ∃ best, MostSpecific handlers uri best := by
  obtain ⟨best, inside, largest⟩ := exists_longest
    (fun entry : TemplateEntry υ => (literalPrefix entry.key).length)
    (List.mem_filter (p := (TemplateEntry.matches · uri)).mpr ⟨member, matched⟩)
  obtain ⟨registered, matched⟩ := List.mem_filter.mp inside
  exact ⟨best, registered, matched, fun other member' matched' =>
    largest other (List.mem_filter.mpr ⟨member', matched'⟩)⟩

section
variable {base : Registry υ} {registrations : List (TemplateEntry υ)} {s : Server υ}
  {params : Json} {uri : String}

/-- Without a match the answer is an error, and with one the most specific template serves
    the URI when no other one that matches shadows it. -/
theorem most_specific_wins_unshadowed (empty : base.resourceTemplates = [])
    (registered : s.handlers = base.registerAll registrations)
    (wellFormed : ∀ entry ∈ registrations, ∃ t : UriTemplate, t.text = entry.key)
    (distinct : ∀ entry ∈ registrations, ∀ other ∈ registrations,
      literalPrefix entry.key = literalPrefix other.key → entry.key = other.key)
    (named : getStringParam params "uri" = .ok uri)
    (unregistered : s.handlers.resources.lookup uri = none)
    (id : RequestId) (sessionId : SessionId) :
    ((∀ entry : TemplateEntry υ, entry ∈ s.handlers.resourceTemplates →
        entry.matches uri = false) →
      (handleResourcesRead id params sessionId).run.run s =
        (.ok (makeErrorResponse id Protocol.methodNotFound ("Resource not found: " ++ uri)), s)) ∧
    (∀ entry : TemplateEntry υ, entry ∈ s.handlers.resourceTemplates →
      entry.matches uri = true → ∃ best, MostSpecific s.handlers uri best) ∧
    (∀ entry, selectTemplate s.handlers uri = some entry →
      ∃ captured, (handleResourcesRead id params sessionId).run.run s =
        (entry.read id uri captured sessionId).run.run s) ∧
    ∀ best, MostSpecific s.handlers uri best →
      (selectTemplate s.handlers uri = some best ↔ Unshadowed s.handlers uri best) := by
  refine ⟨fun unmatched => ?_, fun entry member matched => exists_mostSpecific member matched,
    fun entry selected => ?_, fun best specific => ?_⟩
  · refine resourcesRead_unmatched named unregistered ?_ id sessionId
    exact List.find?_eq_none.mpr fun entry member matched => by
      rw [unmatched entry member] at matched
      cases matched
  · obtain ⟨captures, _, ran⟩ := resourcesRead_selects named unregistered selected id sessionId
    exact ⟨_, ran⟩
  · rw [registered] at specific ⊢
    exact selects_mostSpecific (keyed_registered empty wellFormed distinct) specific

end

/-- `a{x}` -/
def shortTemplate : UriTemplate where
  parts := [.literal (code 'a'), .variable (ascii "x")]
  plain := by decide
  distinct := by decide

/-- `a~{x}` -/
def longTemplate : UriTemplate where
  parts := [.literal (code 'a'), .literal (code '~'), .variable (ascii "x")]
  plain := by decide
  distinct := by decide

def shortEntry : TemplateEntry Unit :=
  ("a{x}", ⟨"short", none, "a{x}", none, none⟩, fun _ _ _ => pure {})

def longEntry : TemplateEntry Unit :=
  ("a~{x}", ⟨"long", none, "a~{x}", none, none⟩, fun _ _ _ => pure {})

def tildeServer : Server Unit :=
  { user := (), registry := ({} : Registry Unit).registerAll [longEntry, shortEntry] }

theorem shortEntry_key : shortTemplate.text = shortEntry.key := by
  rw [TemplateEntry.key, toUTF8_toList]
  decide

theorem longEntry_key : longTemplate.text = longEntry.key := by
  rw [TemplateEntry.key, toUTF8_toList]
  decide

theorem tilde_templates :
    tildeServer.handlers.resourceTemplates = [shortEntry, longEntry] := by
  have order : shortEntry.key < longEntry.key := by
    rw [← shortEntry_key, ← longEntry_key]
    decide
  change (insertSorted shortEntry.key shortEntry [(longEntry.key, longEntry)]).map Prod.snd = _
  rw [insertSorted, if_pos order]
  rfl

theorem tilde_apart : literalPrefix longEntry.key ≠ literalPrefix shortEntry.key := by
  rw [← shortEntry_key, ← longEntry_key]
  decide

theorem tilde_matches : shortEntry.matches "a~b" = true ∧ longEntry.matches "a~b" = true := by
  rw [TemplateEntry.matches_eq, TemplateEntry.matches_eq, ← shortEntry_key, ← longEntry_key,
    toUTF8_toList]
  decide

theorem tilde_specific : MostSpecific tildeServer.handlers "a~b" longEntry where
  registered := by
    rw [tilde_templates]
    exact List.mem_cons_of_mem _ List.mem_cons_self
  matched := tilde_matches.2
  longest := by
    rw [tilde_templates, ← longEntry_key]
    refine List.forall_mem_cons.mpr ⟨fun _ => ?_, List.forall_mem_singleton.mpr fun _ => ?_⟩
    · rw [← shortEntry_key]
      decide
    · rw [← longEntry_key]

theorem tilde_selection :
    selectTemplate tildeServer.handlers "a~b" = some longEntry ↔
      Unshadowed tildeServer.handlers "a~b" longEntry := by
  have each {P : TemplateEntry Unit → Prop} (long : P longEntry) (short : P shortEntry) :
      ∀ entry ∈ [longEntry, shortEntry], P entry :=
    List.forall_mem_cons.mpr ⟨long, List.forall_mem_singleton.mpr short⟩
  have wellFormed : ∀ entry ∈ [longEntry, shortEntry], ∃ t : UriTemplate, t.text = entry.key :=
    each ⟨longTemplate, longEntry_key⟩ ⟨shortTemplate, shortEntry_key⟩
  have distinct : ∀ entry ∈ [longEntry, shortEntry], ∀ other ∈ [longEntry, shortEntry],
      literalPrefix entry.key = literalPrefix other.key → entry.key = other.key :=
    each (each (fun _ => rfl) fun same => absurd same tilde_apart)
      (each (fun same => absurd same.symm tilde_apart) fun _ => rfl)
  have settled := @most_specific_wins_unshadowed Unit {} [longEntry, shortEntry] tildeServer
    (.object [("uri", .string "a~b")]) "a~b" rfl rfl wellFormed distinct rfl rfl (.int 1) []
  exact settled.2.2.2 longEntry tilde_specific

/-- The URI goes on after `a` with a byte above `{`: the shorter template serves it. -/
theorem shorter_template_wins :
    MostSpecific tildeServer.handlers "a~b" longEntry ∧
      selectTemplate tildeServer.handlers "a~b" = some shortEntry ∧
      shortEntry.key ≠ longEntry.key := by
  refine ⟨tilde_specific, ?_, fun same => tilde_apart (congrArg literalPrefix same.symm)⟩
  rw [selectTemplate, tilde_templates]
  exact List.find?_cons_of_pos tilde_matches.1

end CppMcp
