import CppMcp.Http.Message
import CppMcp.Lib.Uri

namespace CppMcp

open Lib

def loopbackNames : List Bytes := [ascii "127.0.0.1", ascii "localhost", ascii "::1"]

/-- The scheme is `http` or `https`, in any letter case. -/
def IsHttpScheme (scheme : Bytes) : Prop :=
  lowerBytes scheme = ascii "http" ∨ lowerBytes scheme = ascii "https"

/-- A part of an origin behind its userinfo, which the check ends at the first `@`. -/
def afterUserinfo (part : Bytes) : Bytes :=
  match part.idxOf? atSign with
  | some i => part.drop (i + 1)
  | none => part

/-- What the check takes for the host in an origin behind `://`. -/
def hostText (rest : Bytes) : Bytes := beforeByte colon (afterUserinfo (beforeByte slash rest))

/-- The host of an origin by the grammar of URIs. -/
def NamesHost (origin host : Bytes) : Prop :=
  ∃ scheme authority rest, Uri.Splits origin scheme authority rest ∧ IsHttpScheme scheme ∧
    Uri.host (Uri.hostPort authority) = some host

/-- An origin that is let in has a host that is one of the allowed ones. -/
def OriginSound (origin configHost : Bytes) : Prop :=
  isOriginAllowed origin configHost = true →
    ∃ host, NamesHost origin host ∧
      (lowerBytes host ∈ loopbackNames ∨ lowerBytes host = lowerBytes configHost)

/-- The grammar reads the same host in an origin as the check, or a loopback name. -/
def ReadsHost (origin : Bytes) : Prop :=
  ∀ scheme rest, origin = scheme ++ ([58, 47, 47] ++ rest) → IsHttpScheme scheme →
    ∃ host, Uri.host (Uri.hostPort (rest.takeWhile fun b => !Uri.isDelimiter b)) = some host ∧
      (lowerBytes host = lowerBytes (hostText rest) ∨ lowerBytes host ∈ loopbackNames)

instance (scheme : Bytes) : Decidable (IsHttpScheme scheme) :=
  inferInstanceAs (Decidable (_ ∨ _))

theorem toNat_lowerByte {b : UInt8} (upper : 65 ≤ b ∧ b ≤ 90) :
    (lowerByte b).toNat = b.toNat + 32 ∧ 65 ≤ b.toNat := by
  have low := UInt8.le_iff_toNat_le.mp upper.1
  have high := UInt8.le_iff_toNat_le.mp upper.2
  simp only [UInt8.reduceToNat] at low high
  rw [lowerByte, if_pos upper, UInt8.toNat_add]
  simp only [UInt8.reduceToNat]
  omega

theorem lowerByte_lower (b : UInt8) : lowerByte (lowerByte b) = lowerByte b := by
  by_cases upper : 65 ≤ b ∧ b ≤ 90
  · have lowered := toNat_lowerByte upper
    have above : ¬ (65 ≤ lowerByte b ∧ lowerByte b ≤ 90) := by
      rintro ⟨-, within⟩
      have within := UInt8.le_iff_toNat_le.mp within
      simp only [UInt8.reduceToNat] at within
      omega
    exact if_neg above
  · have same : lowerByte b = b := if_neg upper
    rw [same, same]

@[simp] theorem lowerBytes_lower (s : Bytes) : lowerBytes (lowerBytes s) = lowerBytes s := by
  simp [lowerBytes, lowerByte_lower]

theorem IsHttpScheme.plain {scheme : Bytes} (http : IsHttpScheme scheme) : 58 ∉ scheme := by
  intro member
  have lowered : lowerByte 58 ∈ lowerBytes scheme := List.mem_map_of_mem member
  rcases http with same | same
  · rw [same] at lowered
    exact absurd lowered (by decide)
  · rw [same] at lowered
    exact absurd lowered (by decide)

theorem findBytes_split {needle s : Bytes} {i : Nat} (found : findBytes needle s = some i) :
    s = s.take i ++ (needle ++ s.drop (i + needle.length)) := by
  induction s generalizing i with
  | nil =>
    have empty : needle = [] := by
      by_contra nonempty
      simp [findBytes, nonempty] at found
    simp [empty]
  | cons b s ih =>
    rw [findBytes] at found
    split at found
    · rename_i starts
      obtain rfl : 0 = i := Option.some.inj found
      obtain ⟨after, whole⟩ := List.isPrefixOf_iff_prefix.mp starts
      rw [← whole]
      simp
    · obtain ⟨j, later, rfl⟩ := Option.map_eq_some_iff.mp found
      have tail := ih later
      rw [show j + 1 + needle.length = j + needle.length + 1 by omega]
      simpa using tail

theorem findBytes_after {scheme : Bytes} (plain : 58 ∉ scheme) (rest : Bytes) :
    findBytes [58, 47, 47] (scheme ++ ([58, 47, 47] ++ rest)) = some scheme.length := by
  rw [findBytes_skip plain]
  simp [findBytes, List.isPrefixOf]

theorem not_isHttpScheme_nil : ¬ IsHttpScheme [] := by
  rintro (same | same)
  · exact absurd same (by decide)
  · exact absurd same (by decide)

/-- The check, on an origin that has a `://`. -/
theorem isOriginAllowed_found {origin : Bytes} {i : Nat} (configHost : Bytes)
    (found : findBytes (ascii "://") origin = some i) :
    isOriginAllowed origin configHost = true ↔ IsHttpScheme (origin.take i) ∧
      (lowerBytes (hostText (origin.drop (i + 3))) ∈ loopbackNames ∨
        lowerBytes (hostText (origin.drop (i + 3))) = configHost) := by
  unfold isOriginAllowed
  rw [found]
  cases i with
  | zero => exact iff_of_false (by simp) fun known => not_isHttpScheme_nil known.1
  | succ i =>
    let host := lowerBytes (hostText (origin.drop (i + 1 + 3)))
    change (if IsHttpScheme (origin.take (i + 1)) then
        host == ascii "127.0.0.1" || host == ascii "localhost" || host == ascii "::1" ||
          host == configHost
      else false) = true ↔ _ ∧ (host ∈ loopbackNames ∨ host = configHost)
    by_cases http : IsHttpScheme (origin.take (i + 1))
    · rw [if_pos http]
      simp [http, loopbackNames, or_assoc]
    · rw [if_neg http]
      simp [http]

theorem isOriginAllowed_iff (origin configHost : Bytes) :
    isOriginAllowed origin configHost = true ↔
      ∃ scheme rest, origin = scheme ++ ([58, 47, 47] ++ rest) ∧ IsHttpScheme scheme ∧
        (lowerBytes (hostText rest) ∈ loopbackNames ∨ lowerBytes (hostText rest) = configHost) := by
  have separator : ascii "://" = [58, 47, 47] := by decide
  constructor
  · intro allowed
    cases found : findBytes (ascii "://") origin with
    | none =>
      rw [isOriginAllowed, found] at allowed
      cases allowed
    | some i =>
      obtain ⟨http, known⟩ := (isOriginAllowed_found configHost found).mp allowed
      have split := findBytes_split found
      rw [separator] at split
      exact ⟨_, _, split, http, known⟩
  · rintro ⟨scheme, rest, rfl, http, known⟩
    have found := findBytes_after http.plain rest
    rw [← separator] at found ⊢
    rw [isOriginAllowed_found configHost found, List.take_left, ← List.drop_drop, List.drop_left]
    exact ⟨http, known⟩

/-- What the check lets in is sound, whatever host is configured, exactly if the grammar of URIs
    reads the origin's host as the check does, or reads a loopback name. -/
theorem origin_sound_iff (origin : Bytes) :
    (∀ configHost, OriginSound origin configHost) ↔ ReadsHost origin := by
  constructor
  · rintro sound scheme rest rfl http
    have allowed : isOriginAllowed (scheme ++ ([58, 47, 47] ++ rest)) (lowerBytes (hostText rest)) =
        true := (isOriginAllowed_iff _ _).mpr ⟨scheme, rest, rfl, http, .inr rfl⟩
    obtain ⟨host, ⟨scheme', authority, rest', splits, -, named⟩, known⟩ := sound _ allowed
    obtain ⟨-, same⟩ := (Uri.splits_takeWhile http.plain rest).unique splits
    rw [same] at named
    rw [lowerBytes_lower] at known
    exact ⟨host, named, known.symm⟩
  · intro reads configHost allowed
    obtain ⟨scheme, rest, rfl, http, known⟩ := (isOriginAllowed_iff _ _).mp allowed
    obtain ⟨host, named, same⟩ := reads scheme rest rfl http
    refine ⟨host, ⟨scheme, _, _, Uri.splits_takeWhile http.plain rest, http, named⟩, ?_⟩
    rcases same with same | loopback
    · rw [same]
      exact known.imp_right fun configured => by rw [← configured, lowerBytes_lower]
    · exact .inl loopback

theorem beforeByte_stops {stop : UInt8} {line rest : Bytes} (plain : stop ∉ line)
    (stops : ∀ b ∈ rest.head?, b = stop) : beforeByte stop (line ++ rest) = line := by
  apply Uri.takeWhile_stops
  · intro b member
    have other : b ≠ stop := fun same => plain (same ▸ member)
    simpa using other
  · exact fun b first => by simp [stops b first]

theorem afterUserinfo_append {user : Bytes} (userinfo : Uri.IsUserinfo user) {part : Bytes}
    (plain : atSign ∉ part) : afterUserinfo (user ++ part) = part := by
  unfold afterUserinfo
  rcases userinfo with rfl | ⟨info, rfl, before⟩
  · rw [List.nil_append, List.idxOf?_eq_none_iff.mpr plain]
  · have found : (info ++ [64] ++ part).idxOf? atSign = some info.length := by
      clear plain
      induction info with
      | nil => simp [List.idxOf?_cons, atSign]
      | cons b info ih =>
        obtain ⟨other, before⟩ := not_or.mp (List.mem_cons.not.mp before)
        have later := ih before
        rw [List.cons_append, List.cons_append, List.idxOf?_cons, later,
          if_neg (by simpa [atSign] using Ne.symm other)]
        rfl
    rw [found]
    simp

/-- The check and the grammar agree on what the check is made for,
    `scheme://[userinfo@]host[:port][/path]` with a host that is no IP literal. -/
theorem reads_plain {scheme user name port path : Bytes} (named : colon ∉ scheme)
    (userinfo : Uri.IsUserinfo user) (isPort : Uri.isPort port = true) (isPath : ∀ b ∈ path.head?, b = slash)
    (undelimited : ∀ b ∈ user ++ name, Uri.isDelimiter b = false)
    (plain : ∀ b ∈ name, b ≠ colon ∧ b ≠ atSign ∧ b ≠ 91) :
    ReadsHost (scheme ++ ([58, 47, 47] ++ (user ++ (name ++ port) ++ path))) := by
  have noColon : colon ∉ name := fun member => (plain _ member).1 rfl
  have noBracket : 91 ∉ name := fun member => (plain _ member).2.2 rfl
  have noAt : atSign ∉ name ++ port := by
    rw [List.mem_append, not_or]
    exact ⟨fun member => (plain _ member).2.1 rfl, fun member =>
      absurd (Uri.isPort_bytes isPort _ member).2 (by decide)⟩
  have authority : ∀ b ∈ user ++ (name ++ port), Uri.isDelimiter b = false := by
    intro b member
    rw [← List.append_assoc, List.mem_append] at member
    rcases member with member | member
    · exact undelimited b member
    · have bounds := Uri.isPort_bytes isPort b member
      have low := UInt8.le_iff_toNat_le.mp bounds.1
      have high := UInt8.le_iff_toNat_le.mp bounds.2
      have apart (other : UInt8) (different : other.toNat < 48 ∨ 58 < other.toNat) : b ≠ other := by
        rintro rfl
        simp only [UInt8.reduceToNat] at low high
        omega
      simp [Uri.isDelimiter, apart 47 (by decide), apart 63 (by decide), apart 35 (by decide)]
  have noSlash : slash ∉ user ++ (name ++ port) := fun member =>
    absurd (authority _ member) (by decide)
  have delimited : ∀ b ∈ path.head?, Uri.isDelimiter b = true := by
    intro b first
    rw [isPath b first]
    decide
  intro scheme' rest same http
  have text : hostText (user ++ (name ++ port) ++ path) = name := by
    rw [hostText, beforeByte_stops noSlash isPath, afterUserinfo_append userinfo noAt,
      beforeByte_stops noColon (Uri.isPort_head isPort)]
  have splits := Uri.splits_takeWhile http.plain rest
  rw [← same] at splits
  have whole : Uri.Splits (scheme ++ ([58, 47, 47] ++ (user ++ (name ++ port) ++ path))) scheme
      (user ++ (name ++ port)) path := ⟨rfl, named, authority, delimited⟩
  obtain ⟨rfl, cut⟩ := whole.unique splits
  obtain rfl : user ++ (name ++ port) ++ path = rest :=
    List.append_cancel_left (List.append_cancel_left same)
  rw [cut, Uri.hostPort_append userinfo noAt, text]
  exact ⟨name, Uri.host_append noColon noBracket isPort, .inl rfl⟩

/-- The host of this origin is in front of its query. -/
theorem query_let_in : ¬ OriginSound (ascii "http://evil.com?@localhost") (ascii "127.0.0.1") := by
  intro sound
  obtain ⟨host, ⟨scheme, authority, rest, splits, -, named⟩, known⟩ := sound (by decide)
  have plain : (ascii "evil.com").any Uri.isDelimiter = false := by decide
  have first : (ascii "?@localhost").head? = some questionMark := by decide
  have split : Uri.Splits (ascii "http://evil.com?@localhost") (ascii "http") (ascii "evil.com")
      (ascii "?@localhost") := by
    refine ⟨by decide, by decide, ?_, ?_⟩
    · intro b member
      exact Bool.eq_false_iff.mpr (List.any_eq_false.mp plain b member)
    · intro b member
      rw [first, Option.mem_some_iff] at member
      rw [← member]
      rfl
  obtain ⟨-, rfl⟩ := split.unique splits
  have read : Uri.host (Uri.hostPort (ascii "evil.com")) = some (ascii "evil.com") := by decide
  obtain rfl : ascii "evil.com" = host := Option.some.inj (read.symm.trans named)
  revert known
  decide

end CppMcp
