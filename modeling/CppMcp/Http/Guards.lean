import CppMcp.Http.Origin

namespace CppMcp

open Lib

inductive IpVersion where
  | v4
  | v6
deriving DecidableEq

/-- The bytes of an IPv4 literal: digits and dots. -/
def IsDotted (s : Bytes) : Prop := s.all (fun b => Uri.isDigit b || b == 46) = true

/-- `asio::ip::make_address`: an IPv4 literal has digits and dots, an IPv6 literal has a colon. -/
structure AddressParser where
  makeAddress : Bytes → Option IpVersion
  v4 : ∀ s, makeAddress s = some .v4 → IsDotted s
  v6 : ∀ s, makeAddress s = some .v6 → colon ∈ s

/-- `start` binds to a host that the parser takes. -/
def AddressParser.binds (parser : AddressParser) (host : Bytes) : Bool :=
  !((parser.makeAddress host).isNone || host.isEmpty)

/-- A host as it stands in a URI and in a `Host` header: an IPv6 literal is in brackets. -/
def bracketed (name : Bytes) : Bytes := if colon ∈ name then [91] ++ name ++ [93] else name

def portSuffix : Option Nat → Bytes
  | none => []
  | some port => colon :: ascii (toString port)

/-- The text names a host, in any letter case, with a port or without. -/
def SpellsHost (name text : Bytes) : Prop :=
  ∃ port, lowerBytes text = lowerBytes (bracketed name ++ portSuffix port)

/-- A request for the configured host, or for a loopback name. -/
structure Legitimate (parser : AddressParser) (configHost name hostHeader origin : Bytes) :
    Prop where
  binds : parser.binds configHost = true
  known : name = configHost ∨ name ∈ loopbackNames
  host : SpellsHost name hostHeader
  origin : ∃ scheme text, IsHttpScheme scheme ∧ SpellsHost name text ∧
    origin = scheme ++ ([58, 47, 47] ++ text)

theorem lowerByte_eq_iff {b stop : UInt8} (low : stop < 65) : lowerByte b = stop ↔ b = stop := by
  by_cases upper : 65 ≤ b ∧ b ≤ 90
  · have lowered := toNat_lowerByte upper
    have low := UInt8.lt_iff_toNat_lt.mp low
    simp only [UInt8.reduceToNat] at low
    apply iff_of_false
    · rintro rfl
      omega
    · rintro rfl
      omega
  · rw [lowerByte, if_neg upper]

theorem mem_lowerBytes {stop : UInt8} (low : stop < 65) (s : Bytes) :
    stop ∈ lowerBytes s ↔ stop ∈ s := by
  simp [lowerBytes, lowerByte_eq_iff low]

theorem beforeByte_lower {stop : UInt8} (low : stop < 65) (s : Bytes) :
    beforeByte stop (lowerBytes s) = lowerBytes (beforeByte stop s) := by
  unfold beforeByte lowerBytes
  rw [List.takeWhile_map]
  congr 2
  funext b
  simp [bne, beq_eq_decide, lowerByte_eq_iff low]

theorem portSuffix_head (port : Option Nat) : ∀ b ∈ (portSuffix port).head?, b = colon := by
  cases port <;> simp [portSuffix]

/-- What stands before the first colon of a host's spelling is its name, unless the host is an
    IPv6 literal. -/
theorem SpellsHost.before {name text : Bytes} (spells : SpellsHost name text)
    (plain : colon ∉ name) : lowerBytes (beforeByte colon text) = lowerBytes name := by
  obtain ⟨port, same⟩ := spells
  have low : colon < 65 := by decide
  rw [bracketed, if_neg plain] at same
  rw [← beforeByte_lower low, same, beforeByte_lower low,
    beforeByte_stops plain (portSuffix_head port)]

/-- An IPv6 literal is cut at the first of its own colons, behind its opening bracket. -/
theorem SpellsHost.cut {name text : Bytes} (spells : SpellsHost name text)
    (literal : colon ∈ name) : (lowerBytes (beforeByte colon text)).head? = some 91 := by
  obtain ⟨port, same⟩ := spells
  have low : colon < 65 := by decide
  rw [bracketed, if_pos literal] at same
  rw [← beforeByte_lower low, same, beforeByte_lower low]
  rfl

theorem portSuffix_bytes (port : Option Nat) :
    ∀ b ∈ portSuffix port, b = colon ∨ 48 ≤ b.toNat ∧ b.toNat ≤ 57 := by
  cases port with
  | none => simp [portSuffix]
  | some port =>
    intro b member
    exact (List.mem_cons.mp member).imp_right (ascii_digits port b)

/-- No byte of the text ends an authority or its userinfo. -/
theorem SpellsHost.plain {name text : Bytes} (spells : SpellsHost name text)
    (literal : colon ∉ name) (noSlash : slash ∉ name) (noAt : atSign ∉ name) :
    slash ∉ text ∧ atSign ∉ text := by
  obtain ⟨port, same⟩ := spells
  rw [bracketed, if_neg literal] at same
  have absent {stop : UInt8} (low : stop < 65) (inName : stop ∉ name)
      (other : ¬ (stop = colon ∨ 48 ≤ stop.toNat ∧ stop.toNat ≤ 57)) : stop ∉ text := by
    rw [← mem_lowerBytes low, same, mem_lowerBytes low, List.mem_append, not_or]
    exact ⟨inName, fun member => other (portSuffix_bytes port stop member)⟩
  exact ⟨absent (by decide) noSlash (by decide), absent (by decide) noAt (by decide)⟩

theorem IsDotted.absent {s : Bytes} (dotted : IsDotted s) {b : UInt8}
    (other : (Uri.isDigit b || b == 46) = false) : b ∉ s := by
  intro member
  have byte := List.all_eq_true.mp dotted b member
  rw [other] at byte
  cases byte

theorem IsDotted.lower {s : Bytes} (dotted : IsDotted s) : lowerBytes s = s := by
  have same : ∀ b ∈ s, lowerByte b = b := by
    intro b member
    have byte := List.all_eq_true.mp dotted b member
    have low : ¬ 65 ≤ b := by
      simp only [Uri.isDigit, Bool.or_eq_true, Bool.and_eq_true, decide_eq_true_eq, beq_iff_eq,
        UInt8.le_iff_toNat_le, UInt8.reduceToNat] at byte ⊢
      rcases byte with digit | rfl
      · omega
      · decide
    exact if_neg fun upper => low upper.1
  unfold lowerBytes
  rw [List.map_congr_left same, List.map_id']

theorem isHostAllowed_iff (hostHeader configHost : Bytes) :
    isHostAllowed hostHeader configHost = true ↔ hostHeader ≠ [] ∧
      (lowerBytes (beforeByte colon hostHeader) = lowerBytes configHost ∨
        lowerBytes (beforeByte colon hostHeader) ∈ loopbackNames) := by
  unfold isHostAllowed
  cases hostHeader with
  | nil => simp
  | cons b rest => simp [loopbackNames, or_assoc]

namespace Legitimate

variable {parser : AddressParser} {configHost name hostHeader origin : Bytes}

theorem configured (legitimate : Legitimate parser configHost name hostHeader origin) :
    configHost ≠ [] ∧ (IsDotted configHost ∨ colon ∈ configHost) := by
  have binds := legitimate.binds
  simp only [AddressParser.binds, Bool.not_eq_true', Bool.or_eq_false_iff] at binds
  obtain ⟨parsed, nonempty⟩ := binds
  refine ⟨by simpa using nonempty, ?_⟩
  cases version : parser.makeAddress configHost with
  | none => simp [version] at parsed
  | some version' =>
    cases version' with
    | v4 => exact .inl (parser.v4 configHost version)
    | v6 => exact .inr (parser.v6 configHost version)

/-- A name that is no IPv6 literal is an IPv4 literal or a loopback name. -/
theorem named (legitimate : Legitimate parser configHost name hostHeader origin)
    (plain : colon ∉ name) : name ≠ [] ∧ slash ∉ name ∧ atSign ∉ name ∧ lowerBytes name = name := by
  obtain ⟨nonempty, version⟩ := legitimate.configured
  rcases legitimate.known with rfl | loopback
  · have dotted : IsDotted name := version.resolve_right plain
    exact ⟨nonempty, dotted.absent (by decide), dotted.absent (by decide), dotted.lower⟩
  · simp only [loopbackNames, List.mem_cons, List.not_mem_nil, or_false] at loopback
    rcases loopback with rfl | rfl | rfl <;> decide

/-- An IPv6 literal is refused for the `[` in front of it. -/
theorem refused (legitimate : Legitimate parser configHost name hostHeader origin)
    (literal : colon ∈ name) : ¬ isHostAllowed hostHeader configHost = true := by
  intro allowed
  obtain ⟨-, known⟩ := (isHostAllowed_iff hostHeader configHost).mp allowed
  have bracket := legitimate.host.cut literal
  rcases known with same | loopback
  · have noColon : colon ∉ lowerBytes (beforeByte colon hostHeader) := by
      rw [mem_lowerBytes (by decide)]
      intro member
      have stopped := List.mem_takeWhile_imp member
      simp at stopped
    rcases legitimate.configured.2 with dotted | colons
    · rw [same, dotted.lower] at bracket
      exact dotted.absent (by decide) (List.mem_of_mem_head? bracket)
    · rw [same, mem_lowerBytes (by decide)] at noColon
      exact noColon colons
  · simp only [loopbackNames, List.mem_cons, List.not_mem_nil, or_false] at loopback
    rcases loopback with same | same | same
    all_goals
      rw [same] at bracket
      revert bracket
      decide

end Legitimate

/-- The guards accept a legitimate request exactly if the host that it names is no IPv6 literal. -/
theorem guards_accept_iff {parser : AddressParser} {configHost name hostHeader origin : Bytes}
    (legitimate : Legitimate parser configHost name hostHeader origin) :
    (isHostAllowed hostHeader configHost = true ∧ isOriginAllowed origin configHost = true) ↔
      colon ∉ name := by
  constructor
  · rintro ⟨allowed, -⟩ literal
    exact legitimate.refused literal allowed
  · intro plain
    obtain ⟨nonempty, noSlash, noAt, lower⟩ := legitimate.named plain
    have before := legitimate.host.before plain
    constructor
    · rw [isHostAllowed_iff, before, lower]
      refine ⟨?_, legitimate.known.imp_left fun same => by rw [← same, lower]⟩
      rintro rfl
      rw [lower] at before
      exact nonempty before.symm
    · obtain ⟨scheme, text, http, spells, rfl⟩ := legitimate.origin
      obtain ⟨textSlash, textAt⟩ := spells.plain plain noSlash noAt
      have whole : hostText text = beforeByte colon text := by
        rw [hostText, ← List.append_nil text, beforeByte_stops textSlash (by simp),
          ← List.nil_append text, afterUserinfo_append (.inl rfl) textAt, List.nil_append,
          List.append_nil]
      rw [isOriginAllowed_iff]
      refine ⟨scheme, text, rfl, http, ?_⟩
      rw [whole, spells.before plain, lower]
      exact legitimate.known.symm

/-- `make_address`, for the two loopback addresses. -/
def loopbackAddresses : AddressParser where
  makeAddress s :=
    if s = ascii "127.0.0.1" then some .v4 else if s = ascii "::1" then some .v6 else none
  v4 s parsed := by
    split at parsed
    · rename_i same
      rw [same, IsDotted]
      decide
    · split at parsed <;> cases parsed
  v6 s parsed := by
    split at parsed
    · cases parsed
    · split at parsed
      · rename_i same
        rw [same]
        decide
      · cases parsed

theorem loopback_legitimate {name : Bytes} (known : name ∈ loopbackNames) :
    Legitimate loopbackAddresses (ascii "127.0.0.1") name
      (bracketed name ++ ascii ":3000") (ascii "http://" ++ (bracketed name ++ ascii ":3000")) where
  binds := by decide
  known := .inr known
  host := ⟨some 3000, rfl⟩
  origin := ⟨ascii "http", bracketed name ++ ascii ":3000", .inl rfl, ⟨some 3000, rfl⟩, rfl⟩

theorem localhost_accepted :
    (isHostAllowed (ascii "localhost:3000") (ascii "127.0.0.1") = true ∧
      isOriginAllowed (ascii "http://localhost:3000") (ascii "127.0.0.1") = true) ↔
    colon ∉ ascii "localhost" :=
  guards_accept_iff (loopback_legitimate (by decide))

theorem literal_refused :
    Legitimate loopbackAddresses (ascii "127.0.0.1") (ascii "::1") (ascii "[::1]:3000")
      (ascii "http://[::1]:3000") ∧
    ¬ (isHostAllowed (ascii "[::1]:3000") (ascii "127.0.0.1") = true ∧
      isOriginAllowed (ascii "http://[::1]:3000") (ascii "127.0.0.1") = true) :=
  ⟨loopback_legitimate (by decide), by decide⟩

end CppMcp
