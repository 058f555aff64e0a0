import CppMcp.Server.Schema

namespace CppMcp

theorem sizeOf_lookup {members : List (String × Json)} {key : String} {value : Json}
    (found : members.lookup key = some value) :
    sizeOf key + sizeOf value + 2 < sizeOf members := by
  induction members with
  | nil => cases found
  | cons entry rest ih =>
    obtain ⟨k, v⟩ := entry
    rw [List.lookup_cons] at found
    split at found
    · rename_i same
      have eq : key = k := by simpa using same
      cases found
      subst eq
      cases rest <;> simp only [List.cons.sizeOf_spec, List.nil.sizeOf_spec, Prod.mk.sizeOf_spec] <;>
        omega
    · have := ih found
      simp only [List.cons.sizeOf_spec]
      omega

theorem sizeOf_alternative {schema alternative : Json} {alternatives : List Json}
    (found : schema.find? "type" = some (.array alternatives))
    (member : alternative ∈ alternatives) :
    sizeOf (Json.object [("type", alternative)]) < sizeOf schema := by
  cases schema with
  | object members =>
    have outer := sizeOf_lookup found
    have inner := List.sizeOf_lt_of_mem member
    simp only [Json.object.sizeOf_spec, Json.array.sizeOf_spec, List.cons.sizeOf_spec,
      List.nil.sizeOf_spec, Prod.mk.sizeOf_spec] at outer ⊢
    omega
  | _ => cases found

/-- The JSON types that the `type` keyword names. Any other name is no constraint. -/
def Json.HasType (value : Json) : String → Prop
  | "object" => ∃ members, value = .object members
  | "array" => ∃ elems, value = .array elems
  | "string" => ∃ s, value = .string s
  | "number" => (∃ n, value = .integer n) ∨ (∃ n, value = .unsigned n) ∨ ∃ d, value = .float d
  | "integer" => (∃ n, value = .integer n) ∨ ∃ n, value = .unsigned n
  | "boolean" => ∃ b, value = .bool b
  | "null" => value = .null
  | _ => True

/-- What the validated subset of JSON Schema means. An object lists each key once, so its
    members are the pairs of a key and the value under it. -/
def Conforms (value schema : Json) : Prop :=
  schema.isObject = true →
    (∀ name, schema.find? "type" = some (.string name) → value.HasType name) ∧
    (∀ alternatives, (_ : schema.find? "type" = some (.array alternatives)) →
      ∃ alternative, ∃ _ : alternative ∈ alternatives,
        Conforms value (.object [("type", alternative)])) ∧
    (∀ allowed, schema.find? "enum" = some (.array allowed) →
      ∃ e ∈ allowed, value.equals e = true) ∧
    (∀ required name, value.isObject = true → schema.find? "required" = some (.array required) →
      .string name ∈ required → value.contains name = true) ∧
    (∀ members properties, (_ : value = .object members) →
      (_ : schema.find? "properties" = some (.object properties)) →
      ∀ key member property, (_ : (key, member) ∈ members) →
        properties.lookup key = some property → Conforms member property) ∧
    (∀ elems items, (_ : value = .array elems) →
      (_ : schema.find? "items" = some (.object items)) →
      ∀ elem, (_ : elem ∈ elems) → Conforms elem (.object items))
termination_by (sizeOf value, sizeOf schema)
decreasing_by
  · apply Prod.Lex.right
    exact sizeOf_alternative ‹_› ‹_›
  · apply Prod.Lex.left
    subst value
    have := List.sizeOf_lt_of_mem ‹(key, member) ∈ members›
    simp only [Prod.mk.sizeOf_spec, Json.object.sizeOf_spec] at *
    omega
  · apply Prod.Lex.left
    subst value
    have := List.sizeOf_lt_of_mem ‹elem ∈ elems›
    simp only [Json.array.sizeOf_spec]
    omega

theorem matchesName_iff (value : Json) (name : String) :
    matchesType value (.string name) = true ↔ value.HasType name := by
  unfold matchesType Json.HasType
  split <;> cases value <;>
    simp_all [Json.isObject, Json.isArray, Json.isString, Json.isNumber, Json.isNumberInteger,
      Json.isBoolean, Json.isNull]

theorem conforms_type (value : Json) (type : Json) :
    Conforms value (.object [("type", type)]) ↔
      (∀ name, type = .string name → value.HasType name) ∧
      (∀ alternatives, type = .array alternatives →
        ∃ alternative ∈ alternatives, Conforms value (.object [("type", alternative)])) := by
  rw [Conforms]
  simp [Json.isObject]

mutual
theorem matchesType_iff (value : Json) : ∀ type : Json,
    matchesType value type = true ↔ Conforms value (.object [("type", type)])
  | .string name => by
    rw [conforms_type, matchesName_iff]
    simp
  | .array alternatives => by
    rw [conforms_type, matchesType, anyMatches_iff value alternatives]
    simp
  | .null | .bool _ | .integer _ | .unsigned _ | .float _ | .object _ => by
    rw [conforms_type]
    simp [matchesType]

theorem anyMatches_iff (value : Json) : ∀ alternatives : List Json,
    matchesType.anyMatches value alternatives = true ↔
      ∃ alternative ∈ alternatives, Conforms value (.object [("type", alternative)])
  | [] => by simp [matchesType.anyMatches]
  | alternative :: rest => by
    rw [matchesType.anyMatches, Bool.or_eq_true, matchesType_iff value alternative,
      anyMatches_iff value rest]
    simp
end

theorem type_iff (value schema : Json) :
    (∀ type, schema.find? "type" = some type → matchesType value type = true) ↔
      (∀ name, schema.find? "type" = some (.string name) → value.HasType name) ∧
      ∀ alternatives, schema.find? "type" = some (.array alternatives) →
        ∃ alternative ∈ alternatives, Conforms value (.object [("type", alternative)]) := by
  cases schema.find? "type" with
  | none => simp
  | some type => simp only [Option.some.injEq, forall_eq', matchesType_iff, conforms_type value type]

theorem schemaKeywords_iff (value schema : Json) (path : String) :
    schemaKeywords value schema path = "" ↔
      (∀ type, schema.find? "type" = some type → matchesType value type = true) ∧
      ∀ allowed, schema.find? "enum" = some (.array allowed) → allowed.any value.equals = true := by
  unfold schemaKeywords
  by_cases typed : ∀ type, schema.find? "type" = some type → matchesType value type = true
  · rw [if_neg]
    · by_cases listed : ∀ allowed, schema.find? "enum" = some (.array allowed) →
          allowed.any value.equals = true
      · rw [if_neg]
        · exact iff_of_true rfl ⟨typed, listed⟩
        · cases found : schema.find? "enum" with
          | none => simp
          | some enum => cases enum <;> simp_all
      · rw [if_pos]
        · exact iff_of_false (by simp [String.append_eq_empty_iff]) fun both => listed both.2
        · push Not at listed
          obtain ⟨allowed, found, refused⟩ := listed
          simp [found, refused]
    · cases found : schema.find? "type" with
      | none => simp
      | some type => simp [typed type found]
  · rw [if_pos]
    · refine iff_of_false ?_ fun both => typed both.1
      split <;> simp [String.append_eq_empty_iff]
    · push Not at typed
      obtain ⟨type, found, refused⟩ := typed
      simp [found, refused]

theorem missingRequired_iff (value schema : Json) :
    missingRequired value schema = none ↔
      ∀ required name, schema.find? "required" = some (.array required) →
        .string name ∈ required → value.contains name = true := by
  unfold missingRequired
  cases schema.find? "required" with
  | none => simp
  | some required =>
    cases required with
    | array required =>
      simp only [List.findSome?_eq_none_iff]
      constructor
      · intro all names name same member
        cases same
        simpa using all _ member
      · intro all req member
        cases req <;> simp
        exact all _ _ rfl member
    | _ => simp

/-- The keywords of one schema, as `schema_validate` goes through them. -/
theorem conforms_iff (value schema : Json) (path : String) :
    Conforms value schema ↔ (schema.isObject = true →
      schemaKeywords value schema path = "" ∧
      (value.isObject = true → missingRequired value schema = none) ∧
      (∀ members properties, value = .object members →
        schema.find? "properties" = some (.object properties) →
        ∀ key member property, (key, member) ∈ members →
          properties.lookup key = some property → Conforms member property) ∧
      ∀ elems items, value = .array elems → schema.find? "items" = some (.object items) →
        ∀ elem ∈ elems, Conforms elem (.object items)) := by
  rw [Conforms, schemaKeywords_iff, missingRequired_iff, type_iff]
  simp only [exists_prop, List.any_eq_true]
  constructor
  · intro conforms object
    obtain ⟨named, alternatives, enum, required, properties, items⟩ := conforms object
    exact ⟨⟨⟨named, alternatives⟩, enum⟩, fun container all name => required all name container,
      properties, items⟩
  · intro keywords object
    obtain ⟨⟨⟨named, alternatives⟩, enum⟩, required, properties, items⟩ := keywords object
    exact ⟨named, alternatives, enum, fun all name container => required container all name,
      properties, items⟩

theorem first_violation (sub rest : String) :
    (if sub ≠ "" then sub else rest) = "" ↔ sub = "" ∧ rest = "" := by
  by_cases h : sub = "" <;> simp [h]

mutual
/-- The recursion over the value and the schema at once: the empty text means that
    nothing was violated. -/
theorem schemaValidate_iff : ∀ (value schema : Json) (path : String),
    schemaValidate value schema path = "" ↔ Conforms value schema
  | .object members, schema, path => by
    rw [conforms_iff _ _ path]
    unfold schemaValidate
    cases schema with
    | object keywords =>
      by_cases own : schemaKeywords (.object members) (.object keywords) path = ""
      · cases missing : missingRequired (.object members) (.object keywords) with
        | some name => simp [own, missing, Json.isObject, String.append_eq_empty_iff]
        | none =>
          cases found : (Json.object keywords).find? "properties" with
          | none => simp_all [Json.isObject]
          | some properties =>
            cases properties with
            | object properties =>
              have := validateMembers_iff members properties path
              simp_all [Json.isObject]
            | _ => simp_all [Json.isObject]
      · simp [own, Json.isObject]
    | _ => simp [Json.isObject]
  | .array elems, schema, path => by
    rw [conforms_iff _ _ path]
    unfold schemaValidate
    cases schema with
    | object keywords =>
      by_cases own : schemaKeywords (.array elems) (.object keywords) path = ""
      · cases found : (Json.object keywords).find? "items" with
        | none => simp_all [Json.isObject]
        | some items =>
          cases items with
          | object items =>
            have := validateItems_iff elems (.object items) path 0
            simp_all [Json.isObject]
          | _ => simp_all [Json.isObject]
      · simp [own, Json.isObject]
    | _ => simp [Json.isObject]
  | .null, schema, path | .bool _, schema, path | .integer _, schema, path
  | .unsigned _, schema, path | .float _, schema, path | .string _, schema, path => by
    rw [conforms_iff _ _ path]
    unfold schemaValidate
    cases schema <;> simp [Json.isObject]

theorem validateMembers_iff : ∀ (members properties : List (String × Json)) (path : String),
    validateMembers members properties path = "" ↔
      ∀ key member property, (key, member) ∈ members →
        properties.lookup key = some property → Conforms member property
  | [], _, _ => by simp [validateMembers]
  | (key, value) :: rest, properties, path => by
    have tail := validateMembers_iff rest properties path
    unfold validateMembers
    cases found : properties.lookup key with
    | none =>
      simp only [tail, List.mem_cons, Prod.mk.injEq]
      constructor
      · rintro all k v p (⟨rfl, rfl⟩ | member) named
        · rw [found] at named
          cases named
        · exact all k v p member named
      · intro all k v p member named
        exact all k v p (.inr member) named
    | some schema =>
      have head := schemaValidate_iff value schema (if path = "" then key else path ++ "." ++ key)
      simp only [first_violation, head, tail, List.mem_cons, Prod.mk.injEq]
      constructor
      · rintro ⟨own, all⟩ k v p (⟨rfl, rfl⟩ | member) named
        · rw [found] at named
          cases named
          exact own
        · exact all k v p member named
      · intro all
        constructor
        · exact all key value schema (.inl ⟨rfl, rfl⟩) found
        · intro k v p member named
          exact all k v p (.inr member) named

theorem validateItems_iff : ∀ (elems : List Json) (schema : Json) (path : String) (i : Nat),
    validateItems elems schema path i = "" ↔ ∀ elem ∈ elems, Conforms elem schema
  | [], _, _, _ => by simp [validateItems]
  | value :: rest, schema, path, i => by
    have head := schemaValidate_iff value schema (path ++ "[" ++ toString i ++ "]")
    have tail := validateItems_iff rest schema path (i + 1)
    unfold validateItems
    simp only [first_violation, head, tail, List.forall_mem_cons]
end

/-- The validator decides its schema subset, wherever in a message the value stands. -/
theorem schemaValidate_decides (value schema : Json) (path : String) :
    schemaValidate value schema path = "" ↔ Conforms value schema :=
  schemaValidate_iff value schema path

end CppMcp
