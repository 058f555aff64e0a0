import CppMcp.Http.Message
import CppMcp.Lib.Delimited

namespace CppMcp

open Lib

/-- `status_text` of any `int`. -/
def intStatusText : Int → String
  | .ofNat status => statusText status
  | .negSucc _ => "Unknown"

def statusLine (status : Int) : Bytes :=
  ascii ("HTTP/1.1 " ++ toString status ++ " " ++ intStatusText status)

/-- `build_http_response`, of negative statuses too. -/
def responseBytes (status : Int) (contentType body : Bytes) (extraHeaders : List (Bytes × Bytes)) :
    Bytes :=
  statusLine status ++ crlf ++
    ascii "Content-Type: " ++ sanitizeHeaderValue contentType ++ crlf ++
    ascii "Content-Length: " ++ ascii (toString body.length) ++ crlf ++
    extraHeaders.flatMap (fun (k, v) =>
      sanitizeHeaderValue k ++ ascii ": " ++ sanitizeHeaderValue v ++ crlf) ++
    crlf ++ body

theorem buildHttpResponse_eq (r : HttpResponse) :
    buildHttpResponse r = responseBytes r.status r.contentType r.body r.extraHeaders := rfl

/-- The lines of a response above its blank line. -/
def headLines (status : Int) (contentType body : Bytes) (extraHeaders : List (Bytes × Bytes)) :
    List Bytes :=
  [statusLine status, ascii "Content-Type: " ++ sanitizeHeaderValue contentType,
    ascii "Content-Length: " ++ ascii (toString body.length)] ++
    extraHeaders.map fun (k, v) => sanitizeHeaderValue k ++ ascii ": " ++ sanitizeHeaderValue v

def responseHead (status : Int) (contentType body : Bytes) (extraHeaders : List (Bytes × Bytes)) :
    Bytes :=
  crlf.intercalate (headLines status contentType body extraHeaders)

theorem intercalate_concat (line : Bytes) (lines : List Bytes) :
    crlf.intercalate (line :: lines) ++ crlf = line ++ crlf ++ lines.flatMap (· ++ crlf) := by
  induction lines generalizing line with
  | nil => simp
  | cons next lines ih =>
    rw [List.intercalate_cons_cons, List.append_assoc, ih next]
    simp

theorem responseBytes_eq (status : Int) (contentType body : Bytes)
    (extraHeaders : List (Bytes × Bytes)) :
    responseBytes status contentType body extraHeaders =
      responseHead status contentType body extraHeaders ++ (crlf ++ crlf ++ body) := by
  unfold responseHead headLines
  rw [List.append_assoc crlf, ← List.append_assoc, List.cons_append, intercalate_concat]
  simp [responseBytes, List.flatMap_map]

/-- A line as HTTP has them: it is not empty, and no carriage return is in it. -/
structure HeadLine (line : Bytes) : Prop where
  nonempty : line ≠ []
  plain : 13 ∉ line

theorem ascii_natural (n : Nat) : 13 ∉ ascii (toString n) := fun member =>
  absurd (ascii_digits n 13 member).1 (by decide)

theorem ascii_integer (n : Int) : 13 ∉ ascii (toString n) := by
  cases n with
  | ofNat n => exact ascii_natural n
  | negSucc n =>
    show 13 ∉ ascii ("-" ++ toString (n + 1))
    rw [ascii_append, List.mem_append, not_or]
    exact ⟨by decide, ascii_natural (n + 1)⟩

theorem statusText_plain (status : Nat) : 13 ∉ ascii (statusText status) := by
  unfold statusText
  split <;> decide

theorem intStatusText_plain (status : Int) : 13 ∉ ascii (intStatusText status) := by
  cases status with
  | ofNat n => exact statusText_plain n
  | negSucc n =>
    show 13 ∉ ascii "Unknown"
    decide

theorem statusLine_line (status : Int) : HeadLine (statusLine status) := by
  have parts : statusLine status =
      ascii "HTTP/1.1 " ++ ascii (toString status) ++ ascii " " ++ ascii (intStatusText status) := by
    simp only [statusLine, ascii_append]
  constructor
  · rw [parts]
    simp [ascii]
  · rw [parts]
    simp only [List.mem_append, not_or]
    exact ⟨⟨⟨by decide, ascii_integer status⟩, by decide⟩, intStatusText_plain status⟩

theorem sanitized_plain (v : Bytes) : 13 ∉ sanitizeHeaderValue v := by
  intro member
  have kept := (List.mem_filter.mp member).2
  simp at kept

theorem headLines_line (status : Int) (contentType body : Bytes)
    (extraHeaders : List (Bytes × Bytes)) :
    ∀ line ∈ headLines status contentType body extraHeaders, HeadLine line := by
  have named {name value : Bytes} (head : name ≠ []) (plainName : 13 ∉ name)
      (plainValue : 13 ∉ value) : HeadLine (name ++ value) := by
    constructor
    · simp [head]
    · simp [plainName, plainValue]
  intro line member
  simp only [headLines, List.cons_append, List.nil_append, List.mem_cons, List.mem_map] at member
  rcases member with rfl | rfl | rfl | ⟨⟨k, v⟩, -, rfl⟩
  · exact statusLine_line status
  · exact named (by decide) (by decide) (sanitized_plain contentType)
  · exact named (by decide) (by decide) (ascii_natural body.length)
  · apply named _ _ (sanitized_plain v)
    · simp [ascii]
    · rw [List.mem_append, not_or]
      exact ⟨sanitized_plain k, by decide⟩

/-- A line end in front of a line is no blank line. -/
theorem findBytes_lineEnd {b : UInt8} (other : b ≠ 13) (below : Bytes) :
    findBytes (crlf ++ crlf) (crlf ++ b :: below) =
      (findBytes (crlf ++ crlf) (b :: below)).map (· + 2) := by
  have blank : crlf ++ crlf = 13 :: [10, 13, 10] := rfl
  have ends : crlf ++ b :: below = 13 :: ([10] ++ b :: below) := rfl
  have apart : (13 :: [10, 13, 10] : Bytes).isPrefixOf (13 :: ([10] ++ b :: below)) = false := by
    simp [List.isPrefixOf, Ne.symm other]
  rw [blank, ends, findBytes, apart, findBytes_skip (by decide)]
  simp

/-- The blank line is the first one below joined lines of a head. -/
theorem find_blank {lines : List Bytes} (nonempty : lines ≠ [])
    (all : ∀ line ∈ lines, HeadLine line) (body : Bytes) :
    findBytes (crlf ++ crlf) (crlf.intercalate lines ++ (crlf ++ crlf ++ body)) =
      some (crlf.intercalate lines).length := by
  have blank : crlf ++ crlf = 13 :: [10, 13, 10] := rfl
  induction lines with
  | nil => exact absurd rfl nonempty
  | cons line lines ih =>
    obtain ⟨first, others⟩ := List.forall_mem_cons.mp all
    cases lines with
    | nil =>
      rw [List.intercalate_singleton, blank, findBytes_skip first.plain]
      simp [findBytes, List.isPrefixOf]
    | cons next lines =>
      have later := ih (by simp) others
      obtain ⟨b, next, rfl⟩ := List.exists_cons_of_ne_nil (others next (by simp)).nonempty
      have other : b ≠ 13 := fun same => (others (b :: next) (by simp)).plain (by simp [same])
      obtain ⟨below, starts⟩ : ∃ below, crlf.intercalate ((b :: next) :: lines) = b :: below := by
        cases lines <;> simp
      rw [starts, List.cons_append] at later
      rw [List.intercalate_cons_cons, starts, List.append_assoc, List.append_assoc,
        List.cons_append, blank, findBytes_skip first.plain, ← blank, findBytes_lineEnd other, later]
      simp [crlf]
      omega

end CppMcp
