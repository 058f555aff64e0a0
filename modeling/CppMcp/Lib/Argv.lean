import Mathlib.Data.List.Basic
import Mathlib.Tactic.Common

namespace CppMcp.Lib.Argv

abbrev Text := List UInt8

def quoteMark : UInt8 := 34
def backslash : UInt8 := 92

/-- A space or a tab, which separate arguments outside quotes. -/
def isBlank (b : UInt8) : Bool := b == 32 || b == 9

/-- The arguments of a command line as the Microsoft C runtime splits it: `2n` backslashes before
    a quote are `n`, and the quote opens or closes; `2n + 1` are `n`, and the quote is literal;
    others are literal. The state is whether a quote is open, the backslashes not yet written and
    the argument so far, if one has begun. -/
def arguments (quoted : Bool) (slashes : Nat) (arg : Option Text) : Text → List Text
  | [] =>
    match arg with
    | none => []
    | some arg => [arg ++ List.replicate slashes backslash]
  | b :: rest =>
    if b = backslash then arguments quoted (slashes + 1) (some (arg.getD [])) rest
    else if b = quoteMark then
      let read := arg.getD [] ++ List.replicate (slashes / 2) backslash
      if slashes % 2 = 1 then arguments quoted 0 (some (read ++ [quoteMark])) rest
      else arguments (!quoted) 0 (some read) rest
    else if isBlank b && !quoted then
      match arg with
      | none => arguments false 0 none rest
      | some arg => (arg ++ List.replicate slashes backslash) :: arguments false 0 none rest
    else arguments quoted 0 (some (arg.getD [] ++ List.replicate slashes backslash ++ [b])) rest

/-- What follows the name of the program, in which a quote has no escape. -/
def afterProgram (quoted : Bool) : Text → Text
  | [] => []
  | b :: rest =>
    if b = quoteMark then afterProgram (!quoted) rest
    else if isBlank b && !quoted then b :: rest
    else afterProgram quoted rest

/-- `argv` of a command line, without `argv[0]`. -/
def programArguments (commandLine : Text) : List Text :=
  arguments false 0 none (afterProgram false commandLine)

/-- The text is at its end, or at a separator. -/
def Ends (rest : Text) : Prop := ∀ b ∈ rest.head?, isBlank b = true

theorem arguments_slashes (quoted : Bool) (m n : Nat) (arg rest : Text) :
    arguments quoted m (some arg) (List.replicate n backslash ++ rest) =
      arguments quoted (m + n) (some arg) rest := by
  induction n generalizing m with
  | zero => rfl
  | succ n ih =>
    rw [List.replicate_succ, List.cons_append, arguments, if_pos rfl]
    show arguments quoted (m + 1) (some arg) _ = _
    rw [ih, Nat.add_assoc, Nat.add_comm 1 n]

/-- A literal quote behind an odd number of backslashes. -/
theorem arguments_escaped (quoted : Bool) (n : Nat) (arg rest : Text) :
    arguments quoted (2 * n + 1) (some arg) (quoteMark :: rest) =
      arguments quoted 0 (some (arg ++ List.replicate n backslash ++ [quoteMark])) rest := by
  have half : (2 * n + 1) / 2 = n := by omega
  have odd : (2 * n + 1) % 2 = 1 := by omega
  rw [arguments, if_neg (by decide), if_pos rfl]
  simp only [half, odd, if_true, Option.getD_some]

/-- A quote behind an even number of backslashes opens or closes. -/
theorem arguments_toggle (quoted : Bool) (n : Nat) (arg rest : Text) :
    arguments quoted (2 * n) (some arg) (quoteMark :: rest) =
      arguments (!quoted) 0 (some (arg ++ List.replicate n backslash)) rest := by
  have half : 2 * n / 2 = n := by omega
  have even : ¬ 2 * n % 2 = 1 := by omega
  rw [arguments, if_neg (by decide), if_pos rfl]
  simp only [half, if_neg even, Option.getD_some]

theorem arguments_literal {quoted : Bool} {b : UInt8} (other : b ≠ backslash)
    (unquote : b ≠ quoteMark) (inside : (isBlank b && !quoted) = false) (n : Nat) (arg rest : Text) :
    arguments quoted n (some arg) (b :: rest) =
      arguments quoted 0 (some (arg ++ List.replicate n backslash ++ [b])) rest := by
  rw [arguments, if_neg other, if_neg unquote, inside]
  simp

/-- An argument begins with its first byte. -/
theorem arguments_begin {b : UInt8} (inside : isBlank b = false) (rest : Text) :
    arguments false 0 none (b :: rest) = arguments false 0 (some []) (b :: rest) := by
  simp [arguments, inside]

theorem arguments_blank {b : UInt8} (blank : isBlank b = true) (rest : Text) :
    arguments false 0 none (b :: rest) = arguments false 0 none rest := by
  have other : b ≠ backslash := by
    rintro rfl
    cases blank
  have unquote : b ≠ quoteMark := by
    rintro rfl
    cases blank
  simp [arguments, other, unquote, blank]

/-- At the end of an argument its last backslashes are literal. -/
theorem arguments_end {rest : Text} (ends : Ends rest) (n : Nat) (arg : Text) :
    arguments false n (some arg) rest =
      (arg ++ List.replicate n backslash) :: arguments false 0 none rest := by
  cases rest with
  | nil => rfl
  | cons b rest =>
    have blank : isBlank b = true := ends b rfl
    have other : b ≠ backslash := by
      rintro rfl
      cases blank
    have unquote : b ≠ quoteMark := by
      rintro rfl
      cases blank
    rw [arguments_blank blank, arguments, if_neg other, if_neg unquote, blank]
    rfl

/-- Without a quote or a blank in it, an argument is read as it stands. -/
theorem arguments_plain {text rest : Text} (plain : ∀ b ∈ text, b ≠ quoteMark ∧ isBlank b = false)
    (ends : Ends rest) (n : Nat) (arg : Text) :
    arguments false n (some arg) (text ++ rest) =
      (arg ++ List.replicate n backslash ++ text) :: arguments false 0 none rest := by
  induction text generalizing n arg with
  | nil => simpa using arguments_end ends n arg
  | cons b text ih =>
    obtain ⟨⟨unquote, inside⟩, plain⟩ := List.forall_mem_cons.mp plain
    by_cases slash : b = backslash
    · have counted := ih plain (n + 1) arg
      rw [List.cons_append, arguments, if_pos slash, Option.getD_some, counted, slash,
        List.replicate_succ']
      simp
    · have written := ih plain 0 (arg ++ List.replicate n backslash ++ [b])
      rw [List.cons_append, arguments_literal slash unquote (by simp [inside]), written]
      simp

theorem afterProgram_plain {quoted : Bool} {text : Text}
    (plain : ∀ b ∈ text, b ≠ quoteMark ∧ (isBlank b && !quoted) = false) (rest : Text) :
    afterProgram quoted (text ++ rest) = afterProgram quoted rest := by
  induction text with
  | nil => rfl
  | cons b text ih =>
    obtain ⟨⟨unquote, inside⟩, plain⟩ := List.forall_mem_cons.mp plain
    rw [List.cons_append, afterProgram, if_neg unquote, inside, ih plain]
    rfl

theorem afterProgram_end {rest : Text} (ends : Ends rest) : afterProgram false rest = rest := by
  cases rest with
  | nil => rfl
  | cons b rest =>
    have blank : isBlank b = true := ends b rfl
    have unquote : b ≠ quoteMark := by
      rintro rfl
      cases blank
    rw [afterProgram, if_neg unquote, blank]
    rfl

end CppMcp.Lib.Argv
