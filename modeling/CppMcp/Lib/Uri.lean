import Mathlib.Data.List.DropRight
import Mathlib.Tactic.Common

namespace CppMcp.Lib.Uri

/-- A text is a list of bytes. -/
abbrev Text := List UInt8

/-- `/`, `?` and `#`, which end an authority. -/
def isDelimiter (b : UInt8) : Bool := b == 47 || b == 63 || b == 35

/-- The text of `scheme "://" authority rest`: what follows the authority is nothing, or begins
    at the first delimiter. -/
structure Splits (uri scheme authority rest : Text) : Prop where
  whole : uri = scheme ++ ([58, 47, 47] ++ (authority ++ rest))
  scheme : 58 ∉ scheme
  authority : ∀ b ∈ authority, isDelimiter b = false
  rest : ∀ b ∈ rest.head?, isDelimiter b = true

/-- An authority without its userinfo, which ends at the last `@`. -/
def hostPort (authority : Text) : Text := authority.rtakeWhile (· != 64)

def isDigit (b : UInt8) : Bool := 48 ≤ b && b ≤ 57

/-- `[ ":" *DIGIT ]` -/
def isPort : Text → Bool
  | [] => true
  | b :: digits => b == 58 && digits.all isDigit

/-- The host of `host [ ":" port ]`, an IP literal without its brackets. -/
def host (hostPort : Text) : Option Text :=
  match hostPort with
  | 91 :: literal =>
    match literal.dropWhile (· != 93) with
    | [] => none
    | _ :: port => if isPort port then some (literal.takeWhile (· != 93)) else none
  | _ =>
    if isPort (hostPort.dropWhile (· != 58)) then some (hostPort.takeWhile (· != 58)) else none

theorem takeWhile_stops {p : UInt8 → Bool} {line rest : Text} (all : ∀ b ∈ line, p b = true)
    (stop : ∀ b ∈ rest.head?, p b = false) : (line ++ rest).takeWhile p = line := by
  rw [List.takeWhile_append_of_pos all]
  cases rest with
  | nil => simp
  | cons b rest =>
    have stopped : p b = false := stop b rfl
    rw [List.takeWhile_cons, stopped]
    simp

theorem Splits.authority_eq {uri scheme authority rest : Text}
    (splits : Splits uri scheme authority rest) :
    (uri.drop (scheme.length + 3)).takeWhile (fun b => !isDelimiter b) = authority := by
  rw [splits.whole, ← List.drop_drop, List.drop_left]
  apply @takeWhile_stops (fun b => !isDelimiter b) authority rest
  · exact fun b member => by simp [splits.authority b member]
  · exact fun b member => by simp [splits.rest b member]

theorem Splits.scheme_eq {uri scheme authority rest : Text}
    (splits : Splits uri scheme authority rest) : uri.takeWhile (· != 58) = scheme := by
  rw [splits.whole]
  apply takeWhile_stops
  · intro b member
    have other : b ≠ 58 := fun same => splits.scheme (same ▸ member)
    simpa using other
  · simp

/-- A text is split in one way only. -/
theorem Splits.unique {uri scheme authority rest scheme' authority' rest' : Text}
    (splits : Splits uri scheme authority rest) (splits' : Splits uri scheme' authority' rest') :
    scheme' = scheme ∧ authority' = authority := by
  have same : scheme' = scheme := by rw [← splits.scheme_eq, splits'.scheme_eq]
  subst same
  exact ⟨rfl, by rw [← splits.authority_eq, splits'.authority_eq]⟩

/-- What follows a scheme is split at its first delimiter. -/
theorem splits_takeWhile {scheme : Text} (named : 58 ∉ scheme) (after : Text) :
    Splits (scheme ++ ([58, 47, 47] ++ after)) scheme (after.takeWhile fun b => !isDelimiter b)
      (after.dropWhile fun b => !isDelimiter b) := by
  constructor
  · rw [List.takeWhile_append_dropWhile]
  · exact named
  · intro b member
    simpa using List.mem_takeWhile_imp member
  · intro b first
    have stopped := List.head?_dropWhile_not (fun b => !isDelimiter b) after
    rw [Option.mem_def.mp first] at stopped
    simpa using stopped

/-- `[ userinfo "@" ]` -/
def IsUserinfo (user : Text) : Prop := user = [] ∨ ∃ info, user = info ++ [64] ∧ 64 ∉ info

theorem hostPort_append {user : Text} (userinfo : IsUserinfo user) {part : Text}
    (plain : 64 ∉ part) : hostPort (user ++ part) = part := by
  have all : ∀ b ∈ part.reverse, (b != 64) = true := by
    intro b member
    have other : b ≠ 64 := fun same => plain (same ▸ List.mem_reverse.mp member)
    simpa using other
  unfold hostPort List.rtakeWhile
  have stops : (part.reverse ++ user.reverse).takeWhile (· != 64) = part.reverse := by
    apply takeWhile_stops all
    rcases userinfo with rfl | ⟨info, rfl, -⟩ <;> simp
  rw [List.reverse_append, stops, List.reverse_reverse]

theorem isPort_bytes {port : Text} (isPort : isPort port = true) :
    ∀ b ∈ port, 48 ≤ b ∧ b ≤ 58 := by
  cases port with
  | nil => simp
  | cons c digits =>
    simp only [Uri.isPort, Bool.and_eq_true, beq_iff_eq, List.all_eq_true] at isPort
    obtain ⟨rfl, digits⟩ := isPort
    intro b member
    rcases List.mem_cons.mp member with rfl | member
    · decide
    · have digit := digits b member
      simp only [isDigit, Bool.and_eq_true, decide_eq_true_eq] at digit
      exact ⟨digit.1, UInt8.le_trans digit.2 (by decide : (57 : UInt8) ≤ 58)⟩

theorem isPort_head {port : Text} (isPort : isPort port = true) : ∀ b ∈ port.head?, b = 58 := by
  cases port with
  | nil => simp
  | cons c digits =>
    simp only [Uri.isPort, Bool.and_eq_true, beq_iff_eq] at isPort
    simp [isPort.1]

theorem host_append {name port : Text} (plain : 58 ∉ name) (unbracketed : 91 ∉ name)
    (isPort : isPort port = true) : host (name ++ port) = some name := by
  have all : ∀ b ∈ name, (b != 58) = true := by
    intro b member
    have other : b ≠ 58 := fun same => plain (same ▸ member)
    simpa using other
  have stop : ∀ b ∈ port.head?, (b != 58) = false := by
    intro b first
    simp [isPort_head isPort b first]
  have before := takeWhile_stops all stop
  have behind : (name ++ port).dropWhile (· != 58) = port := by
    have whole := List.takeWhile_append_dropWhile (p := (· != (58 : UInt8))) (l := name ++ port)
    rw [before] at whole
    exact List.append_cancel_left whole
  unfold host
  split
  · rename_i literal starts
    have member : 91 ∈ name ++ port := by rw [starts]; simp
    rcases List.mem_append.mp member with inside | inside
    · exact absurd inside unbracketed
    · exact absurd (isPort_bytes isPort 91 inside).2 (by decide)
  · rw [behind, before, if_pos isPort]

end CppMcp.Lib.Uri
