import CppMcp.Transport.Line
import CppMcp.Transport.Http

namespace CppMcp

open Lib

/-- What a transport delivers once it is connected again is what a new one delivers. -/
def LineTransport.StartsAnew (rules : LineRules) (codec : JsonCodec) (s : LineTransport) : Prop :=
  ∀ caught back s', run (step rules codec) s (.connects true caught :: back) = some s' →
    ∃ t, run (step rules codec) { handled := s.handled } (.connects true caught :: back) = some t ∧
      s'.delivered = s.delivered ++ t.delivered

def HttpClientTransport.StartsAnew {Λ : Type} (env : HttpClientEnv Λ)
    (s : HttpClientTransport Λ) : Prop :=
  ∀ caught back s', run (step env) s (.connects .reached caught :: back) = some s' →
    ∃ t, run (step env) (initial env s.handled) (.connects .reached caught :: back) = some t ∧
      s'.sse.delivered = s.sse.delivered ++ t.sse.delivered

inductive ClientTransport (Λ : Type) where
  | stdio (t : LineTransport)
  | localPipe (t : LineTransport)
  | http (t : HttpClientTransport Λ)

namespace ClientTransport

variable {Λ : Type}

/-- Its connection has ended. -/
def Ended : ClientTransport Λ → Prop
  | stdio t | localPipe t => t.Ended
  | http t => t.Ended

/-- Its last connection has left nothing behind. -/
def Clean : ClientTransport Λ → Prop
  | stdio t | localPipe t => t.Clean
  | http t => t.Clean

def StartsAnew (env : HttpClientEnv Λ) : ClientTransport Λ → Prop
  | stdio t => t.StartsAnew stdioRules env.codec
  | localPipe t => t.StartsAnew localPipeRules env.codec
  | http t => t.StartsAnew env

end ClientTransport

/-- Every client transport starts anew after a connection that left nothing behind. -/
theorem reconnection_starts_clean {Λ : Type} (env : HttpClientEnv Λ) (s : ClientTransport Λ)
    (ended : s.Ended) (clean : s.Clean) : s.StartsAnew env := by
  cases s with
  | stdio t =>
    intro caught back s' h
    exact LineTransport.delivers_anew ended clean h
  | localPipe t =>
    intro caught back s' h
    exact LineTransport.delivers_anew ended clean h
  | http t =>
    intro caught back s' h
    exact HttpClientTransport.delivers_anew ended clean h

def pingBody : Json := .mk [("a", .unsigned 1)]

/-- The JSON library on the texts of the runs below; their other texts do not parse. -/
def pingCodec : JsonCodec where
  dump j := if j = pingBody then ascii "\x7b\"a\":1\x7d" else []
  parse text := if text = ascii "\x7b\"a\":1\x7d" then some pingBody else none

def pingLine : LineEvent := .receives (ascii "\x7b\"a\":1\x7d\n")

def okHead : Bytes := ascii "HTTP/1.1 200 OK\r\nContent-Length: 7\r\n\r\n"

def okCallbacks : List Callback :=
  [.headerField (ascii "Content-Length"), .headerValue (ascii "7"), .headersComplete 200]

/-- llhttp on the reads of the runs below. -/
def pingHttp : Llhttp Unit where
  init := ()
  execute _ bytes :=
    ((), if bytes = okHead ++ ascii "\x7b\"a\":1\x7d" then
        okCallbacks ++ [.body (ascii "\x7b\"a\":1\x7d"), .messageComplete]
      else if bytes = okHead ++ ascii "\x7b\"a" then okCallbacks ++ [.body (ascii "\x7b\"a")]
      else [])

def pingEnv : HttpClientEnv Unit := { lib := pingHttp, codec := pingCodec }

def okRead : HttpClientEvent := .receives (okHead ++ ascii "\x7b\"a\":1\x7d")

/-- Every transport delivers the message of each of two connections. -/
theorem pings_delivered :
    (∀ rules ∈ [stdioRules, localPipeRules], ∃ s s' t,
      run (LineTransport.step rules pingCodec) {}
        [.setsHandlers, .connects true none, pingLine, .peerCloses] = some s ∧
      run (LineTransport.step rules pingCodec) s [.connects true none, pingLine] = some s' ∧
      run (LineTransport.step rules pingCodec) { handled := true }
        [.connects true none, pingLine] = some t ∧
      s.delivered = [pingBody] ∧ s'.delivered = s.delivered ++ t.delivered) ∧
    ∃ s s' t,
      run (HttpClientTransport.step pingEnv) (.initial pingEnv false)
        [.setsHandlers, .connects .reached none, okRead, .peerCloses] = some s ∧
      run (HttpClientTransport.step pingEnv) s [.connects .reached none, okRead] = some s' ∧
      run (HttpClientTransport.step pingEnv) (.initial pingEnv true)
        [.connects .reached none, okRead] = some t ∧
      s.sse.delivered = [pingBody] ∧ s'.sse.delivered = s.sse.delivered ++ t.sse.delivered := by
  constructor
  · intro rules member
    have cases : rules = stdioRules ∨ rules = localPipeRules := by simpa using member
    let s : LineTransport := { handled := true, delivered := [pingBody] }
    have first : run (LineTransport.step rules pingCodec) {}
        [.setsHandlers, .connects true none, pingLine, .peerCloses] = some s := by
      rcases cases with rfl | rfl <;> rfl
    have second : ∃ s', run (LineTransport.step rules pingCodec) s
        [.connects true none, pingLine] = some s' := by
      rcases cases with rfl | rfl <;> exact ⟨_, rfl⟩
    obtain ⟨s', second⟩ := second
    have starts : s.StartsAnew rules pingCodec := by
      rcases cases with rfl | rfl
      · exact reconnection_starts_clean pingEnv (.stdio s) ⟨rfl, rfl⟩ ⟨rfl, rfl, rfl⟩
      · exact reconnection_starts_clean pingEnv (.localPipe s) ⟨rfl, rfl⟩ ⟨rfl, rfl, rfl⟩
    obtain ⟨t, anew, same⟩ := starts none [pingLine] s' second
    exact ⟨s, s', t, first, second, anew, rfl, same⟩
  · let s : HttpClientTransport Unit :=
      { HttpClientTransport.initial pingEnv true with sse.delivered := [pingBody] }
    have first : run (HttpClientTransport.step pingEnv) (.initial pingEnv false)
        [.setsHandlers, .connects .reached none, okRead, .peerCloses] = some s := rfl
    have second : ∃ s', run (HttpClientTransport.step pingEnv) s
        [.connects .reached none, okRead] = some s' := ⟨_, rfl⟩
    obtain ⟨s', second⟩ := second
    have starts : s.StartsAnew pingEnv :=
      reconnection_starts_clean pingEnv (.http s) ⟨rfl, rfl⟩
        ⟨rfl, rfl, rfl, rfl, rfl, rfl, rfl, rfl, rfl⟩
    obtain ⟨t, anew, same⟩ := starts none [okRead] s' second
    exact ⟨s, s', t, first, second, anew, rfl, same⟩

/-- Half a line, or half a response, that an ended connection has left costs the next
    connection its message. -/
theorem partial_input_spoils_reconnection :
    (∀ rules ∈ [stdioRules, localPipeRules], ∃ s,
      run (LineTransport.step rules pingCodec) {} [.setsHandlers, .connects true none,
        .receives (ascii "\x7b\"par"), .peerCloses] = some s ∧
      s.Ended ∧ ¬ s.StartsAnew rules pingCodec) ∧
    ∃ s, run (HttpClientTransport.step pingEnv) (.initial pingEnv false) [.setsHandlers,
        .connects .reached none, .receives (okHead ++ ascii "\x7b\"a"), .peerCloses] = some s ∧
      s.Ended ∧ ¬ s.StartsAnew pingEnv := by
  constructor
  · intro rules member
    have cases : rules = stdioRules ∨ rules = localPipeRules := by simpa using member
    let s : LineTransport := { handled := true, readBuf := ascii "\x7b\"par" }
    have first : run (LineTransport.step rules pingCodec) {} [.setsHandlers, .connects true none,
        .receives (ascii "\x7b\"par"), .peerCloses] = some s := by
      rcases cases with rfl | rfl <;> rfl
    refine ⟨s, first, ⟨rfl, rfl⟩, fun anew => ?_⟩
    have lost : (run (LineTransport.step rules pingCodec) s [.connects true none, pingLine]).map
        LineTransport.delivered = some [] := by
      rcases cases with rfl | rfl <;> rfl
    have fresh : (run (LineTransport.step rules pingCodec) { handled := s.handled }
        [.connects true none, pingLine]).map LineTransport.delivered = some [pingBody] := by
      rcases cases with rfl | rfl <;> rfl
    obtain ⟨s', second, nothing⟩ := Option.map_eq_some_iff.mp lost
    obtain ⟨t, again, same⟩ := anew none [pingLine] s' second
    rw [again] at fresh
    rw [nothing, Option.some.inj fresh] at same
    cases same
  · let s : HttpClientTransport Unit :=
      { HttpClientTransport.initial pingEnv true with
        parser :=
          { header := { headers := [(ascii "content-length", ascii "7")] }
            responseBody := ascii "\x7b\"a", responseStatus := 200 } }
    have first : run (HttpClientTransport.step pingEnv) (.initial pingEnv false) [.setsHandlers,
        .connects .reached none, .receives (okHead ++ ascii "\x7b\"a"), .peerCloses] = some s := by
      rfl
    refine ⟨s, first, ⟨rfl, rfl⟩, fun anew => ?_⟩
    have lost : (run (HttpClientTransport.step pingEnv) s [.connects .reached none, okRead]).map
        (·.sse.delivered) = some [] := rfl
    have fresh : (run (HttpClientTransport.step pingEnv)
        (.initial pingEnv s.handled) [.connects .reached none, okRead]).map (·.sse.delivered) =
          some [pingBody] := rfl
    obtain ⟨s', second, nothing⟩ := Option.map_eq_some_iff.mp lost
    obtain ⟨t, again, same⟩ := anew none [okRead] s' second
    rw [again] at fresh
    have delivered : t.sse.delivered = [pingBody] := Option.some.inj fresh
    rw [nothing, delivered] at same
    cases same

end CppMcp
