import CppMcp.Protocol

namespace CppMcp

/-- `std::string::find`: where the needle first occurs. -/
def findBytes (needle : Bytes) : Bytes → Option Nat
  | [] => if needle.isEmpty then some 0 else none
  | b :: rest =>
    if needle.isPrefixOf (b :: rest) then some 0 else (findBytes needle rest).map (· + 1)

/-- Where the needle cannot begin, it is not found. -/
theorem findBytes_skip {first : UInt8} {needle line : Bytes} (plain : first ∉ line) (rest : Bytes) :
    findBytes (first :: needle) (line ++ rest) =
      (findBytes (first :: needle) rest).map (· + line.length) := by
  induction line with
  | nil => simp
  | cons b line ih =>
    obtain ⟨other, plain⟩ := not_or.mp (List.mem_cons.not.mp plain)
    rw [List.cons_append, findBytes, ih plain]
    simp [List.isPrefixOf, other]

/-- `s.find(needle) != npos` for a literal. -/
def Bytes.has (s : Bytes) (needle : String) : Bool := (findBytes (ascii needle) s).isSome

/-- `tolower` of the C locale. -/
def lowerByte (b : UInt8) : UInt8 := if 65 ≤ b ∧ b ≤ 90 then b + 32 else b

def lowerBytes (s : Bytes) : Bytes := s.map lowerByte

/-- The part of a string before the first `stop`, the whole of it when there is none. -/
def beforeByte (stop : UInt8) (s : Bytes) : Bytes := s.takeWhile (· != stop)

def colon : UInt8 := 58
def slash : UInt8 := 47
def atSign : UInt8 := 64
def questionMark : UInt8 := 63

theorem ascii_append (s t : String) : ascii (s ++ t) = ascii s ++ ascii t := by
  simp [ascii]

/-- `std::to_string` of a natural number writes digits. -/
theorem ascii_digits (n : Nat) : ∀ b ∈ ascii (toString n), 48 ≤ b.toNat ∧ b.toNat ≤ 57 := by
  intro b member
  obtain ⟨c, digit, rfl⟩ := List.mem_map.mp member
  have digit : c ∈ Nat.toDigits 10 n := by simpa using digit
  have digit := Nat.isDigit_of_mem_toDigits (by decide) (by decide) digit
  have bounds : 48 ≤ c.toNat ∧ c.toNat ≤ 57 := by
    simp only [Char.isDigit, Bool.and_eq_true, decide_eq_true_eq, ge_iff_le,
      UInt32.le_iff_toNat_le] at digit
    exact digit
  rw [UInt8.toNat_ofNat']
  omega

/-- A `std::map` from header name to value: its entries in key order. -/
abbrev Headers := List (Bytes × Bytes)

/-- The value of a header, empty when it is absent. -/
def Headers.valueOf (headers : Headers) (name : String) : Bytes :=
  (headers.lookup (ascii name)).getD []

/-- A request as the parser hands it to `handle_request`. -/
structure HttpRequest where
  method : Bytes
  url : Bytes
  headers : Headers
  body : Bytes
deriving DecidableEq

/-- The arguments of `build_http_response`. -/
structure HttpResponse where
  status : Nat
  contentType : Bytes
  body : Bytes
  extraHeaders : List (Bytes × Bytes) := []
deriving DecidableEq

def statusText (status : Nat) : String :=
  match status with
  | 200 => "OK"
  | 202 => "Accepted"
  | 204 => "No Content"
  | 400 => "Bad Request"
  | 403 => "Forbidden"
  | 404 => "Not Found"
  | 405 => "Method Not Allowed"
  | 406 => "Not Acceptable"
  | 429 => "Too Many Requests"
  | 500 => "Internal Server Error"
  | 503 => "Service Unavailable"
  | _ => "Unknown"

/-- Strip CR, LF and NUL, which would split a response. -/
def sanitizeHeaderValue (v : Bytes) : Bytes := v.filter fun b => b != 13 && b != 10 && b != 0

def crlf : Bytes := [13, 10]

def buildHttpResponse (r : HttpResponse) : Bytes :=
  ascii ("HTTP/1.1 " ++ toString r.status ++ " " ++ statusText r.status) ++ crlf ++
    ascii "Content-Type: " ++ sanitizeHeaderValue r.contentType ++ crlf ++
    ascii "Content-Length: " ++ ascii (toString r.body.length) ++ crlf ++
    r.extraHeaders.flatMap (fun (k, v) =>
      sanitizeHeaderValue k ++ ascii ": " ++ sanitizeHeaderValue v ++ crlf) ++
    crlf ++ r.body

/-- `is_origin_allowed`: the host of the origin is a loopback name or the configured one. -/
def isOriginAllowed (origin configHost : Bytes) : Bool :=
  match findBytes (ascii "://") origin with
  | none | some 0 => false
  | some schemeEnd =>
    let scheme := lowerBytes (origin.take schemeEnd)
    if scheme = ascii "http" ∨ scheme = ascii "https" then
      let rest := origin.drop (schemeEnd + 3)
      -- userinfo ends at the first @, if that comes before any slash
      let hostport := beforeByte slash rest
      let hostport :=
        match hostport.idxOf? atSign with
        | some i => hostport.drop (i + 1)
        | none => hostport
      let host := lowerBytes (beforeByte colon hostport)
      host == ascii "127.0.0.1" || host == ascii "localhost" || host == ascii "::1" ||
        host == configHost
    else false

/-- `is_host_allowed`; the port is not compared. -/
def isHostAllowed (hostHeader configHost : Bytes) : Bool :=
  if hostHeader.isEmpty then false
  else
    let hostOnly := lowerBytes (beforeByte colon hostHeader)
    hostOnly == lowerBytes configHost || hostOnly == ascii "127.0.0.1" ||
      hostOnly == ascii "localhost" || hostOnly == ascii "::1"

example : isHostAllowed (ascii "LocalHost:3000") (ascii "10.0.0.1") = true := by decide

example : isOriginAllowed (ascii "https://evil.com/127.0.0.1") (ascii "10.0.0.1") = false := by
  decide

end CppMcp
