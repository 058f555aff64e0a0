import CppMcp.Lib.Argv
import CppMcp.Protocol

namespace CppMcp

open Lib Argv

/-- What `quote_windows_arg` looks for with `find_first_of`: space, tab, line feed, vertical tab
    and quote. -/
def isSpecial (b : UInt8) : Bool := b == 32 || b == 9 || b == 10 || b == 11 || b == 34

/-- What the loop of `quote_windows_arg` appends to `out`, and the lines behind it. -/
def quoteLoop (backslashes : Nat) : Bytes → Bytes
  | [] => List.replicate (backslashes * 2) backslash ++ [quoteMark]
  | c :: rest =>
    if c = backslash then quoteLoop (backslashes + 1) rest
    else if c = quoteMark then
      List.replicate (backslashes * 2 + 1) backslash ++ quoteMark :: quoteLoop 0 rest
    else List.replicate backslashes backslash ++ c :: quoteLoop 0 rest

def quoteWindowsArg (arg : Bytes) : Bytes :=
  if !arg.isEmpty && !arg.any isSpecial then arg else quoteMark :: quoteLoop 0 arg

/-- The command line of `spawn`. -/
def commandLine (executable : Bytes) (args : List Bytes) : Bytes :=
  args.foldl (fun cmdline a => cmdline ++ [32] ++ quoteWindowsArg a) (quoteWindowsArg executable)

def cmdBuf (executable : Bytes) (args : List Bytes) : Bytes := commandLine executable args ++ [0]

/-- The text of a buffer that ends with a NUL. -/
def cString (buffer : Bytes) : Bytes := buffer.takeWhile (· != 0)

/-- The encoder's counter and the decoder's: with the same backslashes pending, the decoder reads
    what the encoder was given. -/
theorem arguments_quoteLoop (text : Bytes) (n : Nat) (arg rest : Bytes) :
    arguments true 0 (some arg) (quoteLoop n text ++ rest) =
      arguments false 0 (some (arg ++ List.replicate n backslash ++ text)) rest := by
  induction text generalizing n arg with
  | nil =>
    rw [quoteLoop, List.append_assoc, arguments_slashes, Nat.zero_add, Nat.mul_comm]
    rw [List.singleton_append, arguments_toggle, List.append_nil]
    rfl
  | cons c text ih =>
    by_cases slash : c = backslash
    · rw [quoteLoop, if_pos slash, ih, List.replicate_succ', slash]
      simp
    · by_cases mark : c = quoteMark
      · rw [quoteLoop, if_neg slash, if_pos mark, List.append_assoc, arguments_slashes,
          Nat.zero_add, Nat.mul_comm, List.cons_append, arguments_escaped, ih, mark]
        simp
      · rw [quoteLoop, if_neg slash, if_neg mark, List.append_assoc, arguments_slashes,
          Nat.zero_add, List.cons_append, arguments_literal slash mark (by simp), ih]
        simp

theorem plain_of_unspecial {arg : Bytes} : arg.any isSpecial = false →
    ∀ b ∈ arg, b ≠ quoteMark ∧ isBlank b = false := by
  intro none b member
  have byte := List.any_eq_false.mp none b member
  simp only [isSpecial, Bool.or_eq_true, beq_iff_eq, not_or] at byte
  simp [quoteMark, isBlank, byte]

/-- One argument is read back, and what follows it is left. -/
theorem arguments_quote (arg : Bytes) {rest : Bytes} (ends : Ends rest) :
    arguments false 0 none (quoteWindowsArg arg ++ rest) = arg :: arguments false 0 none rest := by
  unfold quoteWindowsArg
  split
  · rename_i plain
    simp only [Bool.and_eq_true, Bool.not_eq_true', List.isEmpty_eq_false_iff] at plain
    obtain ⟨nonempty, none⟩ := plain
    have bytes := plain_of_unspecial none
    obtain ⟨b, text, rfl⟩ := List.exists_cons_of_ne_nil nonempty
    rw [List.cons_append, arguments_begin (bytes b (by simp)).2, ← List.cons_append,
      arguments_plain bytes ends]
    rfl
  · have opened : arguments false 0 none (quoteMark :: quoteLoop 0 arg ++ rest) =
        arguments true 0 (some []) (quoteLoop 0 arg ++ rest) := rfl
    rw [opened, arguments_quoteLoop, arguments_end ends]
    simp

theorem afterProgram_quoteLoop {text : Bytes} (plain : quoteMark ∉ text) (n : Nat)
    (rest : Bytes) : afterProgram true (quoteLoop n text ++ rest) = afterProgram false rest := by
  have slashes (k : Nat) : ∀ b ∈ List.replicate k backslash,
      b ≠ quoteMark ∧ (isBlank b && !true) = false := by
    intro b member
    rw [List.eq_of_mem_replicate member]
    decide
  induction text generalizing n with
  | nil =>
    rw [quoteLoop, List.append_assoc, afterProgram_plain (slashes (n * 2))]
    rfl
  | cons c text ih =>
    obtain ⟨other, plain⟩ := not_or.mp (List.mem_cons.not.mp plain)
    by_cases slash : c = backslash
    · rw [quoteLoop, if_pos slash, ih plain]
    · rw [quoteLoop, if_neg slash, if_neg (Ne.symm other), List.append_assoc,
        afterProgram_plain (slashes n), List.cons_append, afterProgram, if_neg (Ne.symm other)]
      simp [ih plain]

theorem afterProgram_quote {executable : Bytes} (plain : quoteMark ∉ executable) {rest : Bytes}
    (ends : Ends rest) : afterProgram false (quoteWindowsArg executable ++ rest) = rest := by
  unfold quoteWindowsArg
  split
  · rename_i bare
    simp only [Bool.and_eq_true, Bool.not_eq_true'] at bare
    have bytes := plain_of_unspecial bare.2
    rw [afterProgram_plain fun b member => by simp [bytes b member], afterProgram_end ends]
  · have opened : afterProgram false (quoteMark :: quoteLoop 0 executable ++ rest) =
        afterProgram true (quoteLoop 0 executable ++ rest) := rfl
    rw [opened, afterProgram_quoteLoop plain, afterProgram_end ends]

theorem commandLine_eq (executable : Bytes) (args : List Bytes) :
    commandLine executable args =
      quoteWindowsArg executable ++ args.flatMap fun a => 32 :: quoteWindowsArg a := by
  unfold commandLine
  generalize quoteWindowsArg executable = front
  induction args generalizing front with
  | nil => simp
  | cons a args ih =>
    rw [List.foldl_cons, ih, List.flatMap_cons]
    simp

theorem ends_arguments (args : List Bytes) :
    Ends (args.flatMap fun a => 32 :: quoteWindowsArg a) := by
  cases args with
  | nil => simp [Ends]
  | cons a args =>
    simp only [Ends, List.flatMap_cons, List.cons_append, List.head?_cons, Option.mem_def,
      Option.some.injEq, forall_eq']
    decide

theorem arguments_joined (args : List Bytes) :
    arguments false 0 none (args.flatMap fun a => 32 :: quoteWindowsArg a) = args := by
  induction args with
  | nil => rfl
  | cons a args ih =>
    rw [List.flatMap_cons, List.cons_append, arguments_blank (by decide),
      arguments_quote a (ends_arguments args), ih]

theorem quoteLoop_bytes {b : UInt8} (text : Bytes) (n : Nat) (member : b ∈ quoteLoop n text) :
    b = backslash ∨ b = quoteMark ∨ b ∈ text := by
  induction text generalizing n with
  | nil =>
    rw [quoteLoop, List.mem_append, List.mem_singleton] at member
    exact member.imp List.eq_of_mem_replicate .inl
  | cons c text ih =>
    have later (n : Nat) (inside : b ∈ quoteLoop n text) :
        b = backslash ∨ b = quoteMark ∨ b ∈ c :: text :=
      (ih n inside).imp_right fun known => known.imp_right (List.mem_cons_of_mem c)
    rw [quoteLoop] at member
    split at member
    · exact later _ member
    · split at member
      · rcases List.mem_append.mp member with slash | rest
        · exact .inl (List.eq_of_mem_replicate slash)
        · rcases List.mem_cons.mp rest with mark | inside
          · exact .inr (.inl mark)
          · exact later _ inside
      · rcases List.mem_append.mp member with slash | rest
        · exact .inl (List.eq_of_mem_replicate slash)
        · rcases List.mem_cons.mp rest with rfl | inside
          · exact .inr (.inr List.mem_cons_self)
          · exact later _ inside

theorem nul_not_mem_quote {arg : Bytes} (plain : 0 ∉ arg) : 0 ∉ quoteWindowsArg arg := by
  unfold quoteWindowsArg
  split
  · exact plain
  · intro member
    rcases List.mem_cons.mp member with mark | inside
    · exact absurd mark (by decide)
    · rcases quoteLoop_bytes arg 0 inside with slash | mark | inside
      · exact absurd slash (by decide)
      · exact absurd mark (by decide)
      · exact plain inside

/-- The child gets the arguments that `spawn` was given: the runtime reads them from the command
    line, and the command line passes whole when no NUL is in what it is made of. -/
theorem argv_round_trip (executable : Bytes) (args : List Bytes)
    (named : quoteMark ∉ executable) :
    programArguments (commandLine executable args) = args ∧
      ((∀ text ∈ executable :: args, 0 ∉ text) →
        cString (cmdBuf executable args) = commandLine executable args) := by
  constructor
  · rw [programArguments, commandLine_eq, afterProgram_quote named (ends_arguments args)]
    exact arguments_joined args
  · intro plain
    obtain ⟨program, plain⟩ := List.forall_mem_cons.mp plain
    have whole : ∀ b ∈ commandLine executable args, (b != 0) = true := by
      intro b member
      rw [commandLine_eq, List.mem_append, List.mem_flatMap] at member
      have other : b ≠ 0 := by
        rintro rfl
        rcases member with inside | ⟨a, given, inside⟩
        · exact nul_not_mem_quote program inside
        · rcases List.mem_cons.mp inside with space | inside
          · exact absurd space (by decide)
          · exact nul_not_mem_quote (plain a given) inside
      simpa using other
    rw [cString, cmdBuf, List.takeWhile_append_of_pos whole]
    simp

/-- An empty argument, one that ends in a backslash, and one with quotes behind backslashes. -/
def awkwardArguments : List Bytes := [[], ascii "a b\\", ascii "say \\\"hi\\\""]

theorem awkward_round_trip :
    programArguments (commandLine (ascii "my tools\\mcp.exe") awkwardArguments) =
        awkwardArguments ∧
      cString (cmdBuf (ascii "my tools\\mcp.exe") awkwardArguments) =
        commandLine (ascii "my tools\\mcp.exe") awkwardArguments :=
  (argv_round_trip _ _ (by decide)).imp_right fun passes => passes (by decide)

end CppMcp
