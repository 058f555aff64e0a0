import CppMcp.Http.Reports

namespace CppMcp

open Lib

theorem appendWithin_spans (limit : Option Nat) (spans : List Bytes) {s : Bytes}
    (fits : limit.any (· < s.length) = false) :
    spans.foldlM (appendWithin limit) s = appendWithin limit s spans.flatten := by
  induction spans generalizing s with
  | nil => simp [appendWithin, fits]
  | cons span rest ih =>
    rw [List.foldlM_cons, List.flatten_cons]
    cases limit with
    | none =>
      have added : appendWithin none s span = some (s ++ span) := rfl
      rw [added]
      simp only [Option.bind_eq_bind, Option.bind_some]
      rw [ih (s := s ++ span) rfl]
      simp [appendWithin]
    | some limit =>
      by_cases exceeds : limit < s.length + span.length
      · have more : limit < s.length + (span.length + rest.flatten.length) := by omega
        simp only [appendWithin, Option.any_some, List.length_append, decide_eq_true_eq,
          if_pos exceeds, if_pos more, Option.bind_eq_bind, Option.bind_none]
      · have added : appendWithin (some limit) s span = some (s ++ span) := by
          simp [appendWithin, exceeds]
        rw [added]
        simp only [Option.bind_eq_bind, Option.bind_some]
        rw [ih (s := s ++ span) (by simpa using exceeds)]
        simp [appendWithin, Nat.add_assoc]

namespace HeaderBuffer

variable (rules : HeaderRules)

/-- No value is left over from a header that has no name. -/
def Tidy (b : HeaderBuffer) : Prop := b.field = [] → b.value = []

@[simp] theorem flush_field (b : HeaderBuffer) : (b.flush rules).field = [] := by
  unfold flush
  split
  · rename_i empty
    simpa using empty
  · rfl

theorem flush_of_empty {b : HeaderBuffer} (empty : b.field = []) : b.flush rules = b := by
  simp [flush, empty]

@[simp] theorem flush_flush (b : HeaderBuffer) : (b.flush rules).flush rules = b.flush rules :=
  flush_of_empty rules (flush_field rules b)

theorem Tidy.flush_value {b : HeaderBuffer} (tidy : b.Tidy) : (b.flush rules).value = [] := by
  unfold flush
  split
  · rename_i empty
    exact tidy (by simpa using empty)
  · rfl

theorem Tidy.flush {b : HeaderBuffer} (tidy : b.Tidy) : (b.flush rules).Tidy :=
  fun _ => tidy.flush_value rules

/-- `on_header_field` and `on_header_value` over the spans of a header. -/
def readField (b : HeaderBuffer) (f : FieldReport) : Option HeaderBuffer :=
  (f.name.foldlM (onField rules) b).bind fun b => f.value.foldlM (onValue rules) b

theorem onField_nil {b : HeaderBuffer}
    (room : ¬ rules.maxCount.any (· ≤ (b.flush rules).headers.length) = true) :
    b.onField rules [] = some (b.flush rules) := by
  have appended : appendWithin rules.maxLine (b.flush rules).field [] =
      some (b.flush rules).field := by
    rw [flush_field]
    cases rules.maxLine <;> rfl
  simp only [onField, appendWithin] at appended ⊢
  rw [if_neg room, appended]
  rfl

/-- A name in one piece is read as if it came in one span. -/
theorem onField_whole {name : List Bytes} (whole : name.dropLast.flatten = [])
    (named : name.flatten ≠ []) (b : HeaderBuffer) :
    name.foldlM (onField rules) b = b.onField rules name.flatten := by
  induction name generalizing b with
  | nil => exact absurd rfl named
  | cons span rest ih =>
    cases rest with
    | nil => simp
    | cons next rest =>
      rw [List.dropLast_cons_cons, List.flatten_cons, List.append_eq_nil_iff] at whole
      obtain ⟨rfl, whole⟩ := whole
      rw [List.flatten_cons, List.nil_append] at named ⊢
      rw [List.foldlM_cons]
      by_cases full : rules.maxCount.any (· ≤ (b.flush rules).headers.length) = true
      · simp [onField, full]
      · rw [onField_nil rules full]
        simp only [Option.bind_eq_bind, Option.bind_some]
        rw [ih whole named]
        simp [onField]

def valuePart : Part HeaderBuffer Bytes where
  get b := b.value
  set value b := { b with value }
  get_set _ _ := rfl
  set_get _ := rfl
  set_set _ _ _ := rfl

theorem onValue_spans {b : HeaderBuffer} (empty : b.value = []) (spans : List Bytes) :
    spans.foldlM (onValue rules) b = b.onValue rules spans.flatten := by
  have lifted := valuePart.foldlM_lift (appendWithin rules.maxLine) spans b
  have fits : rules.maxLine.any (· < ([] : Bytes).length) = false := by
    cases rules.maxLine <;> rfl
  rw [Part.lift, show valuePart.get b = [] from empty, appendWithin_spans _ spans fits, ← empty]
    at lifted
  exact lifted

theorem onField_value {b q : HeaderBuffer} (tidy : b.Tidy) {span : Bytes}
    (read : b.onField rules span = some q) : q.value = [] ∧ q.field = span := by
  simp only [onField] at read
  split at read
  · cases read
  · obtain ⟨field, appended, rfl⟩ := Option.map_eq_some_iff.mp read
    refine ⟨tidy.flush_value rules, ?_⟩
    rw [flush_field, appendWithin] at appended
    split at appended
    · cases appended
    · cases appended
      rfl

theorem readField_tidy {b q : HeaderBuffer} (tidy : b.Tidy) {name : Bytes} (named : name ≠ [])
    {value : Bytes} (read : b.readField rules (.single (name, value)) = some q) : q.Tidy := by
  simp only [readField, FieldReport.single, List.foldlM_cons, List.foldlM_nil, bind_pure] at read
  obtain ⟨mid, field, valued⟩ := Option.bind_eq_some_iff.mp read
  obtain ⟨v, -, rfl⟩ := Option.map_eq_some_iff.mp valued
  obtain ⟨-, rfl⟩ := onField_value rules tidy field
  exact fun empty => absurd empty named

theorem readField_whole {b : HeaderBuffer} (tidy : b.Tidy) {f : FieldReport} (whole : f.Whole)
    (named : f.name.flatten ≠ []) :
    b.readField rules f = b.readField rules (.single f.header) := by
  simp only [readField, FieldReport.single, FieldReport.header, List.foldlM_cons,
    List.foldlM_nil, bind_pure]
  rw [onField_whole rules whole named]
  cases field : b.onField rules f.name.flatten with
  | none => rfl
  | some q => exact onValue_spans rules (onField_value rules tidy field).1 f.value

/-- Headers whose names come in one piece are read as if each came in one span. -/
theorem readFields_whole {b : HeaderBuffer} (tidy : b.Tidy) {fields : List FieldReport}
    (whole : ∀ f ∈ fields, f.Whole) (named : ∀ f ∈ fields, f.name.flatten ≠ []) :
    fields.foldlM (readField rules) b =
        (fields.map fun f => FieldReport.single f.header).foldlM (readField rules) b ∧
      ∀ q, fields.foldlM (readField rules) b = some q → q.Tidy := by
  induction fields generalizing b with
  | nil =>
    refine ⟨rfl, fun q read => ?_⟩
    cases read
    exact tidy
  | cons f rest ih =>
    have same := readField_whole rules tidy (whole f List.mem_cons_self)
      (named f List.mem_cons_self)
    rw [List.map_cons, List.foldlM_cons, List.foldlM_cons, same]
    cases read : b.readField rules (.single f.header) with
    | none => exact ⟨rfl, nofun⟩
    | some q =>
      exact ih (readField_tidy rules tidy (named f List.mem_cons_self) read)
        (fun f member => whole f (List.mem_cons_of_mem _ member))
        (fun f member => named f (List.mem_cons_of_mem _ member))

theorem readField_single {b : HeaderBuffer} (tidy : b.Tidy) {h : Bytes × Bytes}
    (room : rules.maxCount.all ((b.flush rules).headers.length < ·) = true)
    (name : rules.maxLine.all (h.1.length ≤ ·) = true)
    (value : rules.maxLine.all (h.2.length ≤ ·) = true) :
    b.readField rules (.single h) =
      some { b.flush rules with field := h.1, value := h.2 } := by
  have field : b.onField rules h.1 = some { b.flush rules with field := h.1 } := by
    have empty := flush_field rules b
    simp only [onField, appendWithin, empty]
    rw [if_neg, if_neg]
    · rfl
    · cases line : rules.maxLine <;> simp_all
    · cases count : rules.maxCount <;> simp_all
  simp only [readField, FieldReport.single, List.foldlM_cons, List.foldlM_nil, bind_pure, field,
    Option.bind_some]
  have empty := tidy.flush_value rules
  simp only [onValue, appendWithin, empty]
  rw [if_neg]
  · rfl
  · cases line : rules.maxLine <;> simp_all

theorem flush_length (b : HeaderBuffer) :
    (b.flush rules).headers.length ≤ b.headers.length + 1 := by
  unfold flush
  split
  · omega
  · exact length_insertSorted_le _ _ _

/-- Headers that keep the limits are read, the first of them after those in the buffer. -/
theorem readFields_accepted (headers : List (Bytes × Bytes)) {b : HeaderBuffer} (tidy : b.Tidy)
    (room : rules.maxCount.all ((b.flush rules).headers.length + headers.length ≤ ·) = true)
    (named : ∀ h ∈ headers, h.1 ≠ [])
    (short : ∀ h ∈ headers, rules.maxLine.all (h.1.length ≤ ·) = true ∧
      rules.maxLine.all (h.2.length ≤ ·) = true) :
    ∃ q, (headers.map FieldReport.single).foldlM (readField rules) b = some q ∧ q.Tidy ∧
      (q.flush rules).headers.length ≤ (b.flush rules).headers.length + headers.length := by
  induction headers generalizing b with
  | nil => exact ⟨b, rfl, tidy, Nat.le_refl _⟩
  | cons h rest ih =>
    obtain ⟨name, value⟩ := short h List.mem_cons_self
    have first := readField_single rules tidy (h := h) (by
      cases count : rules.maxCount <;> simp_all
      omega) name value
    let next : HeaderBuffer := { b.flush rules with field := h.1, value := h.2 }
    have grown : (next.flush rules).headers.length ≤ (b.flush rules).headers.length + 1 :=
      flush_length rules next
    obtain ⟨q, read, tidy', bound⟩ := ih (b := next)
      (fun empty => absurd empty (named h List.mem_cons_self))
      (by
        cases count : rules.maxCount with
        | none => rfl
        | some n =>
          simp only [count, Option.all_some, List.length_cons, decide_eq_true_eq] at room ⊢
          omega)
      (fun h member => named h (List.mem_cons_of_mem _ member))
      (fun h member => short h (List.mem_cons_of_mem _ member))
    refine ⟨q, ?_, tidy', ?_⟩
    · rw [List.map_cons, List.foldlM_cons, first]
      exact read
    · rw [List.length_cons]
      omega

/-- How much of what was read is still in the buffer. -/
def entryWeight (h : Bytes × Bytes) : Nat := h.1.length + h.2.length

def weight (b : HeaderBuffer) : Nat := total entryWeight b.headers + b.field.length + b.value.length

/-- Fewer bytes are left than were read, or some header was stored without a value. -/
def Lost (b : HeaderBuffer) (read : Nat) : Prop :=
  b.weight < read ∨ b.weight ≤ read ∧ ∃ name, name ≠ [] ∧ (name, []) ∈ b.headers

@[simp] theorem length_lowerBytes (s : Bytes) : (lowerBytes s).length = s.length := by
  simp [lowerBytes]

theorem weight_flush (b : HeaderBuffer) : (b.flush rules).weight ≤ b.weight := by
  unfold flush
  split
  · exact Nat.le_refl _
  · have written := total_insertSorted entryWeight (lowerBytes b.field) b.value b.headers
    have entry : entryWeight (lowerBytes b.field, b.value) = b.field.length + b.value.length := by
      simp [entryWeight]
    simp only [weight, List.length_nil]
    rcases written with added | ⟨old, -, replaced⟩ <;> omega

theorem Lost.flush {b : HeaderBuffer} {read : Nat} (lost : b.Lost read) :
    (b.flush rules).Lost read := by
  have lighter := weight_flush rules b
  rcases lost with less | ⟨bound, name, named, member⟩
  · exact .inl (by omega)
  · unfold HeaderBuffer.flush
    split
    · exact .inr ⟨bound, name, named, member⟩
    · have entry : entryWeight (lowerBytes b.field, b.value) =
          b.field.length + b.value.length := by simp [entryWeight]
      rcases mem_insertSorted entryWeight (lowerBytes b.field) b.value member with
        kept | ⟨-, replaced⟩
      · refine .inr ⟨?_, name, named, kept⟩
        rename_i filled
        have := lighter
        simp only [HeaderBuffer.flush, filled] at this
        exact this.trans bound
      · left
        have long : 0 < entryWeight (name, []) := by
          simp [entryWeight, List.length_pos_iff, named]
        simp only [weight, List.length_nil] at bound ⊢
        omega

theorem appendWithin_some {limit : Option Nat} {s span t : Bytes}
    (appended : appendWithin limit s span = some t) : t = s ++ span := by
  unfold appendWithin at appended
  split at appended
  · cases appended
  · exact (Option.some.inj appended).symm

theorem onField_some {b q : HeaderBuffer} {span : Bytes}
    (read : b.onField rules span = some q) : q = { b.flush rules with field := span } := by
  simp only [onField] at read
  split at read
  · cases read
  · obtain ⟨field, appended, rfl⟩ := Option.map_eq_some_iff.mp read
    rw [appendWithin_some appended, flush_field, List.nil_append]

theorem onValue_some {b q : HeaderBuffer} {span : Bytes}
    (read : b.onValue rules span = some q) : q = { b with value := b.value ++ span } := by
  obtain ⟨value, appended, rfl⟩ := Option.map_eq_some_iff.mp read
  rw [appendWithin_some appended]

theorem weight_onField {b q : HeaderBuffer} {span : Bytes}
    (read : b.onField rules span = some q) :
    q.weight = (b.flush rules).weight + span.length := by
  rw [onField_some rules read]
  simp only [weight, flush_field, List.length_nil]
  omega

theorem weight_onValue {b q : HeaderBuffer} {span : Bytes}
    (read : b.onValue rules span = some q) : q.weight = b.weight + span.length := by
  rw [onValue_some rules read]
  simp only [weight, List.length_append]
  omega

/-- A bound on the buffer in the bytes read that every callback keeps. -/
structure Carried (P : HeaderBuffer → Nat → Prop) : Prop where
  field : ∀ {b q : HeaderBuffer} {n : Nat} {span : Bytes}, P b n →
    b.onField rules span = some q → P q (n + span.length)
  value : ∀ {b q : HeaderBuffer} {n : Nat} {span : Bytes}, P b n →
    b.onValue rules span = some q → P q (n + span.length)

theorem carried_weight : Carried rules fun b n => b.weight ≤ n where
  field {b q n span} bound read := by
    have lighter := weight_flush rules b
    rw [weight_onField rules read]
    omega
  value {b q n span} bound read := by
    rw [weight_onValue rules read]
    omega

theorem carried_lost : Carried rules Lost where
  field {b q n span} lost read := by
    have heavier := weight_onField rules read
    have headers : q.headers = (b.flush rules).headers := by rw [onField_some rules read]
    rcases lost.flush rules with less | ⟨bound, name, named, member⟩
    · exact .inl (by omega)
    · exact .inr ⟨by omega, name, named, by rw [headers]; exact member⟩
  value {b q n span} lost read := by
    have heavier := weight_onValue rules read
    have headers : q.headers = b.headers := by rw [onValue_some rules read]
    rcases lost with less | ⟨bound, name, named, member⟩
    · exact .inl (by omega)
    · exact .inr ⟨by omega, name, named, by rw [headers]; exact member⟩

section
variable {rules} {P : HeaderBuffer → Nat → Prop}

theorem carried_spans {read : HeaderBuffer → Bytes → Option HeaderBuffer}
    (keeps : ∀ {b q : HeaderBuffer} {n : Nat} {span : Bytes}, P b n → read b span = some q →
      P q (n + span.length)) {spans : List Bytes} {b q : HeaderBuffer} {n : Nat} (holds : P b n)
    (fold : spans.foldlM read b = some q) : P q (n + spans.flatten.length) := by
  induction spans generalizing b n with
  | nil =>
    cases fold
    exact holds
  | cons span rest ih =>
    rw [List.foldlM_cons] at fold
    obtain ⟨next, first, fold⟩ := Option.bind_eq_some_iff.mp fold
    have reached := ih (keeps holds first) fold
    rw [List.flatten_cons, List.length_append, ← Nat.add_assoc]
    exact reached

theorem Carried.fields (carried : Carried rules P) (fields : List FieldReport)
    {b q : HeaderBuffer} {n : Nat} (holds : P b n)
    (fold : fields.foldlM (readField rules) b = some q) :
    P q (n + total entryWeight (fields.map FieldReport.header)) := by
  induction fields generalizing b n with
  | nil =>
    cases fold
    exact holds
  | cons f rest ih =>
    rw [List.foldlM_cons] at fold
    obtain ⟨next, first, fold⟩ := Option.bind_eq_some_iff.mp fold
    obtain ⟨mid, name, value⟩ := Option.bind_eq_some_iff.mp first
    have reached := ih (carried_spans carried.value (carried_spans carried.field holds name)
      value) fold
    have size : n + f.name.flatten.length + f.value.flatten.length +
        total entryWeight (rest.map FieldReport.header) =
          n + total entryWeight ((f :: rest).map FieldReport.header) := by
      simp only [total, List.map_cons, List.sum_cons, FieldReport.header, entryWeight]
      omega
    rw [← size]
    exact reached

end

/-- A name in several pieces: the first is stored as a header of its own, with no value. -/
theorem lost_of_split {name : List Bytes} {b q : HeaderBuffer} {n : Nat}
    (tidy : b.Tidy) (bound : b.weight ≤ n) (split : name.dropLast.flatten ≠ [])
    (fold : name.foldlM (onField rules) b = some q) : q.Lost (n + name.flatten.length) := by
  induction name generalizing b n with
  | nil => exact absurd rfl split
  | cons span rest ih =>
    cases rest with
    | nil => exact absurd rfl split
    | cons next rest =>
      rw [List.foldlM_cons] at fold
      obtain ⟨mid, first, later⟩ := Option.bind_eq_some_iff.mp fold
      have bound' := (carried_weight rules).field bound first
      rw [List.flatten_cons, List.length_append, ← Nat.add_assoc]
      by_cases empty : span = []
      · subst empty
        have same := onField_some rules first
        refine ih (fun _ => ?_) bound' (by simpa using split) later
        rw [same]
        exact tidy.flush_value rules
      · rw [List.foldlM_cons] at later
        obtain ⟨stored, second, later⟩ := Option.bind_eq_some_iff.mp later
        obtain ⟨value, field⟩ := onField_value rules tidy first
        have lost : stored.Lost (n + span.length + next.length) := by
          refine .inr ⟨(carried_weight rules).field bound' second, lowerBytes span, ?_, ?_⟩
          · simpa [lowerBytes] using empty
          · rw [onField_some rules second]
            simp only [HeaderBuffer.flush, field, List.isEmpty_iff, empty, if_false, value]
            exact mem_insertSorted_self _ _ _
        rw [List.flatten_cons, List.length_append, ← Nat.add_assoc]
        exact carried_spans (carried_lost rules).field lost later

theorem lost_of_not_whole {fields : List FieldReport} {b q : HeaderBuffer} {n : Nat}
    (tidy : b.Tidy) (bound : b.weight ≤ n) (named : ∀ f ∈ fields, f.name.flatten ≠ [])
    (broken : ¬ ∀ f ∈ fields, f.Whole) (fold : fields.foldlM (readField rules) b = some q) :
    q.Lost (n + total entryWeight (fields.map FieldReport.header)) := by
  induction fields generalizing b n with
  | nil => exact absurd (by simp) broken
  | cons f rest ih =>
    have one := fold
    rw [List.foldlM_cons] at fold
    obtain ⟨next, first, fold⟩ := Option.bind_eq_some_iff.mp fold
    have size : n + total entryWeight ((f :: rest).map FieldReport.header) =
        n + f.name.flatten.length + f.value.flatten.length +
          total entryWeight (rest.map FieldReport.header) := by
      simp only [total, List.map_cons, List.sum_cons, FieldReport.header, entryWeight]
      omega
    rw [size]
    by_cases whole : f.Whole
    · have single := readField_whole rules tidy whole (named f List.mem_cons_self)
      have bound' := (carried_weight rules).fields [f] bound (by simpa using first)
      rw [single] at first
      refine ih (readField_tidy rules tidy (named f List.mem_cons_self) first) ?_
        (fun f member => named f (List.mem_cons_of_mem _ member)) ?_ fold
      · simpa [total, FieldReport.header, entryWeight, Nat.add_assoc] using bound'
      · intro all
        refine broken fun f' member => ?_
        rcases List.mem_cons.mp member with rfl | member
        · exact whole
        · exact all f' member
    · obtain ⟨mid, name, value⟩ := Option.bind_eq_some_iff.mp first
      have lost := lost_of_split rules tidy bound whole name
      exact (carried_lost rules).fields rest (carried_spans (carried_lost rules).value lost value) fold

theorem readField_single_some {b q : HeaderBuffer} (tidy : b.Tidy) {h : Bytes × Bytes}
    (read : b.readField rules (.single h) = some q) :
    q = { b.flush rules with field := h.1, value := h.2 } := by
  simp only [readField, FieldReport.single, List.foldlM_cons, List.foldlM_nil, bind_pure] at read
  obtain ⟨mid, field, value⟩ := Option.bind_eq_some_iff.mp read
  rw [onValue_some rules value, (onField_value rules tidy field).1, onField_some rules field]
  rfl

/-- Every stored header has a value. -/
def Valued (b : HeaderBuffer) (read : Nat) : Prop :=
  (∀ h ∈ b.headers, h.2 ≠ []) ∧ total entryWeight b.headers = read

/-- Headers with distinct names are all stored, each with its value. -/
theorem valued_of_plain (headers : List (Bytes × Bytes)) {b q : HeaderBuffer} {n : Nat}
    (tidy : b.Tidy) (stored : (b.flush rules).Valued n) (named : ∀ h ∈ headers, h.1 ≠ [])
    (valued : ∀ h ∈ headers, h.2 ≠ []) (distinct : (headers.map fun h => lowerBytes h.1).Nodup)
    (other : ∀ h ∈ headers, ∀ old ∈ (b.flush rules).headers, old.1 ≠ lowerBytes h.1)
    (fold : (headers.map FieldReport.single).foldlM (readField rules) b = some q) :
    (q.flush rules).Valued (n + total entryWeight headers) := by
  induction headers generalizing b n with
  | nil =>
    cases fold
    exact stored
  | cons h rest ih =>
    rw [List.map_cons, List.foldlM_cons] at fold
    obtain ⟨next, first, later⟩ := Option.bind_eq_some_iff.mp fold
    have filled := named h List.mem_cons_self
    have shape := readField_single_some rules tidy first
    have written : (next.flush rules).headers =
        insertSorted (lowerBytes h.1) h.2 (b.flush rules).headers := by
      rw [shape]
      simp [flush, filled]
    rw [List.map_cons, List.nodup_cons] at distinct
    have size : n + total entryWeight (h :: rest) =
        n + entryWeight h + total entryWeight rest := by
      simp only [total, List.map_cons, List.sum_cons]
      omega
    rw [size]
    refine ih (fun empty => ?_) ⟨?_, ?_⟩ (fun h member => named h (List.mem_cons_of_mem _ member))
      (fun h member => valued h (List.mem_cons_of_mem _ member)) distinct.2 ?_ later
    · rw [shape] at empty
      exact absurd empty filled
    · intro entry member
      rw [written] at member
      rcases mem_of_insertSorted member with rfl | old
      · exact valued h List.mem_cons_self
      · exact stored.1 entry old
    · have weigh : entryWeight (lowerBytes h.1, h.2) = entryWeight h := by simp [entryWeight]
      rw [written, ← weigh, ← stored.2]
      rcases total_insertSorted entryWeight (lowerBytes h.1) h.2 (b.flush rules).headers with
        added | ⟨old, member, -⟩
      · exact added
      · exact absurd rfl (other h List.mem_cons_self _ member)
    · intro h' member' old member
      rw [written] at member
      rcases mem_of_insertSorted member with rfl | kept
      · intro same
        exact distinct.1 (List.mem_map.mpr ⟨h', member', same.symm⟩)
      · exact other h' (List.mem_cons_of_mem _ member') old kept

/-- A header name in several pieces shows in the headers of a plain message. -/
theorem split_shows {fields : List FieldReport} {b bad good : HeaderBuffer} (empty : b.field = [])
    (unread : b.value = []) (none : b.headers = []) (named : ∀ f ∈ fields, f.name.flatten ≠ [])
    (valued : ∀ f ∈ fields, f.value.flatten ≠ [])
    (distinct : (fields.map fun f => lowerBytes f.name.flatten).Nodup)
    (broken : ¬ ∀ f ∈ fields, f.Whole)
    (read : fields.foldlM (readField rules) b = some bad)
    (readWhole : (fields.map fun f => FieldReport.single f.header).foldlM (readField rules) b =
      some good) : (bad.flush rules).headers ≠ (good.flush rules).headers := by
  intro same
  have tidy : b.Tidy := fun _ => unread
  have light : b.weight ≤ 0 := by simp [weight, empty, unread, none, total]
  have lost := (lost_of_not_whole rules tidy light named broken read).flush rules
  have start : (b.flush rules).Valued 0 := by
    rw [flush_of_empty rules empty]
    exact ⟨by simp [none], by simp [none, total]⟩
  obtain ⟨all, sum⟩ := valued_of_plain rules (fields.map FieldReport.header) tidy start
    (by simpa [FieldReport.header] using named) (by simpa [FieldReport.header] using valued)
    (by simpa [FieldReport.header, Function.comp_def] using distinct)
    (by simp [flush_of_empty rules empty, none])
    (by simpa [List.map_map, Function.comp_def] using readWhole)
  rcases lost with less | ⟨-, name, -, member⟩
  · rw [← sum, ← same, weight] at less
    omega
  · rw [same] at member
    exact all _ member rfl

end HeaderBuffer

end CppMcp
