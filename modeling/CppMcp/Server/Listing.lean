import CppMcp.Lib.Run
import CppMcp.Server.Handlers

namespace CppMcp

open Lib

/-- The lists that share `handle_list_request`. -/
inductive ListKind where
  | tools
  | resources
  | resourceTemplates
  | prompts
deriving DecidableEq

def ListKind.field : ListKind → CacheField
  | tools => ⟨(·.tools), fun c j => { c with tools := some j }⟩
  | resources => ⟨(·.resources), fun c j => { c with resources := some j }⟩
  | resourceTemplates => ⟨(·.resourceTemplates), fun c j => { c with resourceTemplates := some j }⟩
  | prompts => ⟨(·.prompts), fun c j => { c with prompts := some j }⟩

def ListKind.key : ListKind → String
  | tools => "tools"
  | resources => "resources"
  | resourceTemplates => "resourceTemplates"
  | prompts => "prompts"

theorem field_get_set (kind other : ListKind) (cache : ListCache) (result : Json) :
    other.field.get (kind.field.set cache result) =
      if other = kind then some result else other.field.get cache := by
  cases kind <;> cases other <;> rfl

theorem field_get_empty (kind : ListKind) : kind.field.get {} = none := by
  cases kind <;> rfl

/-- What a list request does up to and with its probe of the cache. -/
inductive Probe where
  | invalidCursor
  | hit (cached : Json)
  | miss (offset : Nat) (paginated cacheable : Bool)

def probeList (frozen : Bool) (pageSize : Nat) (cache : ListCache) (field : CacheField)
    (params : Json) : Except Exn Probe := do
  let paginated := decide (0 < pageSize)
  match ← if paginated then cursorOffset params else .ok (some 0) with
  | none => return .invalidCursor
  | some offset =>
    let cacheable := frozen && !paginated
    match if cacheable then field.get cache else none with
    | some cached => return .hit cached
    | none => return .miss offset paginated cacheable

def listResult (paginated : Bool) (pageSize offset : Nat) (key : String) (items : List Json) :
    Except Exn Json :=
  if paginated then page key items offset pageSize else .ok (Json.null.set key (.array items))

theorem probeList_paginated (frozen : Bool) {pageSize : Nat} (paginated : 0 < pageSize)
    (cache : ListCache) (field : CacheField) (params : Json) :
    probeList frozen pageSize cache field params = (cursorOffset params).map fun offset =>
      offset.elim .invalidCursor fun offset => .miss offset true false := by
  simp only [probeList, paginated, decide_true, if_true, Bool.not_true, Bool.and_false]
  cases cursorOffset params with
  | error e => rfl
  | ok offset => cases offset <;> rfl

theorem probeList_whole (frozen : Bool) {pageSize : Nat} (whole : ¬ 0 < pageSize)
    (cache : ListCache) (field : CacheField) (params : Json) :
    probeList frozen pageSize cache field params =
      .ok ((if frozen then field.get cache else none).elim (.miss 0 false frozen) .hit) := by
  simp only [probeList, whole, decide_false, Bool.false_eq_true, if_false, Bool.not_false,
    Bool.and_true]
  cases frozen with
  | false => rfl
  | true => cases field.get cache <;> simp [pure, Except.pure, bind, Except.bind]

theorem liftExcept_ok_bind {υ α β : Type} (a : α) (f : α → ServerM υ β) :
    (handleListRequest.liftExcept (.ok a) >>= f) = f a := rfl

/-- `handle_list_request` is its probe, its producer and its fill in this order. -/
theorem handleListRequest_steps {υ : Type} (id : RequestId) (field : CacheField) (key : String)
    (params : Json) (produceItems : ServerM υ (List Json)) :
    handleListRequest id field key params produceItems = (do
      let s ← get
      match ← handleListRequest.liftExcept
          (probeList s.frozen.isSome s.listPageSize s.listCache field params) with
      | .invalidCursor => return invalidParams id "Invalid cursor"
      | .hit cached => return makeSuccessResponse id cached
      | .miss offset paginated cacheable =>
        let items ← produceItems
        let result ← handleListRequest.liftExcept
          (listResult paginated s.listPageSize offset key items)
        if cacheable then
          modify fun s => { s with listCache := field.set s.listCache result }
        return makeSuccessResponse id result) := by
  unfold handleListRequest
  refine bind_congr fun s => ?_
  by_cases paginated : 0 < s.listPageSize
  · rw [probeList_paginated _ paginated]
    simp only [paginated, decide_true, if_true, Bool.not_true, Bool.and_false, Bool.false_eq_true,
      if_false]
    cases cursorOffset params with
    | error e => rfl
    | ok offset => cases offset <;> rfl
  · rw [probeList_whole _ paginated, liftExcept_ok_bind]
    simp only [paginated, decide_false, Bool.false_eq_true, if_false, Bool.not_false, Bool.and_true]
    rw [liftExcept_ok_bind]
    cases s.frozen.isSome with
    | false => rfl
    | true => cases found : field.get s.listCache <;> simp [listResult, liftExcept_ok_bind]

variable {σ : Type}

/-- Where a list request stands. `built` counts the changes of the source that its items
    have seen. -/
inductive ListPhase where
  | producing (offset : Nat) (paginated cacheable : Bool)
  | filling (result : Json) (built : Nat)
  | answered (response : Json) (built : Nat)
  | refused (why : Option Exn)

/-- A list request, with the changes that were followed by an invalidation before its probe. -/
structure ListRequest where
  id : RequestId
  kind : ListKind
  since : Nat
  phase : ListPhase

/-- The list cache among concurrent requests. `source` is what the producers read, `past` what
    it was before; `invalidated` counts the changes before the last invalidation, and `builtAt`
    belongs to the entries of the cache. -/
structure Listing (σ : Type) where
  source : σ
  past : List σ := []
  frozen : Bool := false
  listPageSize : Nat := 0
  listCache : ListCache := {}
  builtAt : ListKind → Nat := fun _ => 0
  invalidated : Nat := 0
  requests : List ListRequest := []

def Listing.setPhase (s : Listing σ) (place : Nat) (r : ListRequest) (phase : ListPhase) :
    Listing σ :=
  { s with requests := s.requests.set place { r with phase } }

def Listing.invalidateListCache (s : Listing σ) : Listing σ :=
  { s with listCache := {}, invalidated := s.past.length }

inductive ListingEvent (σ : Type) where
  | freezes (frozen : Bool)
  | setsPageSize (n : Nat)
  | changes (source : σ)
  | invalidates
  | probes (id : RequestId) (kind : ListKind) (params : Json)
  | produces (place : Nat)
  | fills (place : Nat)

/-- The event is a call of `invalidate_list_cache`, direct or not. -/
def ListingEvent.isInvalidation : ListingEvent σ → Bool
  | .setsPageSize _ | .invalidates => true
  | _ => false

variable (produce : ListKind → σ → Except Exn (List Json))

/-- One critical section, or one call of a producer. -/
def Listing.step (s : Listing σ) : ListingEvent σ → Option (Listing σ)
  | .freezes frozen => some { s with frozen }
  | .setsPageSize n => some { s with listPageSize := n }.invalidateListCache
  | .changes source => some { s with source, past := s.past ++ [s.source] }
  | .invalidates => some s.invalidateListCache
  | .probes id kind params =>
    let phase := match probeList s.frozen s.listPageSize s.listCache kind.field params with
      | .error e => .refused (some e)
      | .ok .invalidCursor => .refused none
      | .ok (.hit cached) => .answered (makeSuccessResponse id cached) (s.builtAt kind)
      | .ok (.miss offset paginated cacheable) => .producing offset paginated cacheable
    some { s with requests := s.requests ++ [⟨id, kind, s.invalidated, phase⟩] }
  | .produces place =>
    match s.requests[place]? with
    | some r =>
      match r.phase with
      | .producing offset paginated cacheable =>
        match produce r.kind s.source >>= listResult paginated s.listPageSize offset r.kind.key with
        | .error e => some (s.setPhase place r (.refused (some e)))
        | .ok result =>
          if cacheable then some (s.setPhase place r (.filling result s.past.length))
          else some (s.setPhase place r
            (.answered (makeSuccessResponse r.id result) s.past.length))
      | _ => none
    | none => none
  | .fills place =>
    match s.requests[place]? with
    | some r =>
      match r.phase with
      | .filling result built =>
        some ({ s with
          listCache := r.kind.field.set s.listCache result
          builtAt := fun kind => if kind = r.kind then built else s.builtAt kind }.setPhase place r
            (.answered (makeSuccessResponse r.id result) built))
      | _ => none
    | none => none

def Listing.initial (source : σ) : Listing σ := { source }

/-- No fill brings items into the cache that a later invalidation was to keep out. -/
def PromptFill (s : Listing σ) : ListingEvent σ → Prop
  | .fills place =>
    match s.requests[place]? with
    | some r =>
      match r.phase with
      | .filling _ built => s.invalidated ≤ built
      | _ => True
    | none => True
  | _ => True

/-- The result is made of the source as it was after `built` changes. -/
def BuiltFrom (history : List σ) (kind : ListKind) (result : Json) (built : Nat) : Prop :=
  ∃ source items paginated pageSize offset, history[built]? = some source ∧
    produce kind source = .ok items ∧
    listResult paginated pageSize offset kind.key items = .ok result

def Listing.history (s : Listing σ) : List σ := s.past ++ [s.source]

theorem BuiltFrom.change {history : List σ} {kind : ListKind} {result : Json} {built : Nat}
    (builtFrom : BuiltFrom produce history kind result built) (source : σ) :
    BuiltFrom produce (history ++ [source]) kind result built := by
  obtain ⟨origin, items, paginated, pageSize, offset, found, rest⟩ := builtFrom
  obtain ⟨bound, -⟩ := List.getElem?_eq_some_iff.mp found
  exact ⟨origin, items, paginated, pageSize, offset,
    (List.getElem?_append_left bound).trans found, rest⟩

/-- What a request has so far is no older than the invalidations before its probe. -/
def ListRequest.Fresh (r : ListRequest) (history : List σ) : Prop :=
  match r.phase with
  | .producing _ _ _ => True
  | .filling result built => r.since ≤ built ∧ BuiltFrom produce history r.kind result built
  | .answered response built => r.since ≤ built ∧
    ∃ result, response = makeSuccessResponse r.id result ∧
      BuiltFrom produce history r.kind result built
  | .refused _ => True

/-- What the cache holds is no older than the last invalidation, nor is any request. -/
structure Fresh (s : Listing σ) : Prop where
  counted : s.invalidated ≤ s.past.length
  cache : ∀ kind cached, kind.field.get s.listCache = some cached →
    s.invalidated ≤ s.builtAt kind ∧ BuiltFrom produce s.history kind cached (s.builtAt kind)
  since : ∀ r ∈ s.requests, r.since ≤ s.invalidated
  requests : ∀ r ∈ s.requests, r.Fresh produce s.history

theorem Fresh.initial (source : σ) : Fresh produce (Listing.initial source) where
  counted := Nat.zero_le _
  cache kind cached held := by
    rw [Listing.initial, field_get_empty] at held
    cases held
  since r member := by cases member
  requests r member := by cases member

variable {produce}

theorem Fresh.invalidate {s : Listing σ} (inv : Fresh produce s) :
    Fresh produce s.invalidateListCache where
  counted := Nat.le_refl _
  cache kind cached held := by
    rw [Listing.invalidateListCache, field_get_empty] at held
    cases held
  since r member := (inv.since r member).trans inv.counted
  requests := inv.requests

theorem ListRequest.Fresh.change {r : ListRequest} {history : List σ}
    (fresh : r.Fresh produce history) (source : σ) : r.Fresh produce (history ++ [source]) := by
  unfold ListRequest.Fresh at fresh ⊢
  cases phase : r.phase <;> simp only [phase] at fresh ⊢
  case filling result built => exact ⟨fresh.1, fresh.2.change produce source⟩
  case answered response built =>
    obtain ⟨late, result, same, builtFrom⟩ := fresh
    exact ⟨late, result, same, builtFrom.change produce source⟩

theorem Fresh.change {s : Listing σ} (inv : Fresh produce s) (source : σ) :
    Fresh produce { s with source, past := s.past ++ [s.source] } where
  counted := by
    have counted := inv.counted
    simp only [List.length_append, List.length_singleton]
    omega
  cache kind cached held := by
    obtain ⟨late, builtFrom⟩ := inv.cache kind cached held
    exact ⟨late, builtFrom.change produce source⟩
  since := inv.since
  requests r member := (inv.requests r member).change source

theorem Fresh.append {s : Listing σ} (inv : Fresh produce s) {r : ListRequest}
    (late : r.since ≤ s.invalidated) (fresh : r.Fresh produce s.history) :
    Fresh produce { s with requests := s.requests ++ [r] } where
  counted := inv.counted
  cache := inv.cache
  since other member := by
    rcases List.mem_append.mp member with member | member
    · exact inv.since other member
    · cases List.mem_singleton.mp member
      exact late
  requests other member := by
    rcases List.mem_append.mp member with member | member
    · exact inv.requests other member
    · cases List.mem_singleton.mp member
      exact fresh

theorem Fresh.setPhase {s : Listing σ} (inv : Fresh produce s) {place : Nat} {r : ListRequest}
    (found : s.requests[place]? = some r) {phase : ListPhase}
    (fresh : { r with phase }.Fresh produce s.history) :
    Fresh produce (s.setPhase place r phase) where
  counted := inv.counted
  cache := inv.cache
  since other member := by
    rcases List.mem_or_eq_of_mem_set member with member | rfl
    · exact inv.since other member
    · exact inv.since r (List.mem_of_getElem? found)
  requests other member := by
    rcases List.mem_or_eq_of_mem_set member with member | rfl
    · exact inv.requests other member
    · exact fresh

theorem Fresh.fill {s : Listing σ} (inv : Fresh produce s) {kind : ListKind} {result : Json}
    {built : Nat} (prompt : s.invalidated ≤ built)
    (builtFrom : BuiltFrom produce s.history kind result built) :
    Fresh produce { s with
      listCache := kind.field.set s.listCache result
      builtAt := fun other => if other = kind then built else s.builtAt other } where
  counted := inv.counted
  cache other cached held := by
    rw [field_get_set] at held
    by_cases same : other = kind
    · subst same
      simp only [if_true, Option.some.injEq] at held ⊢
      subst held
      exact ⟨prompt, builtFrom⟩
    · simp only [same, if_false] at held ⊢
      exact inv.cache other cached held
  since := inv.since
  requests := inv.requests

theorem probeList_hit {frozen : Bool} {pageSize : Nat} {cache : ListCache} {field : CacheField}
    {params cached : Json}
    (hit : probeList frozen pageSize cache field params = .ok (.hit cached)) :
    field.get cache = some cached := by
  have probed (offset : Option Nat) (cacheable : Bool) (paginated : Bool)
      (hit : (match offset with
        | none => Except.ok Probe.invalidCursor
        | some offset => match if cacheable then field.get cache else none with
          | some cached => .ok (.hit cached)
          | none => .ok (.miss offset paginated cacheable) : Except Exn Probe) =
            .ok (.hit cached)) : field.get cache = some cached := by
    cases offset with
    | none => cases hit
    | some offset =>
      cases cacheable with
      | false => cases hit
      | true =>
        cases found : field.get cache with
        | none => simp [found] at hit
        | some held => simpa [found] using hit
  simp only [probeList] at hit
  split at hit
  · obtain ⟨offset, -, hit⟩ := bind_eq_ok.mp hit
    exact probed offset _ _ hit
  · obtain ⟨offset, -, hit⟩ := bind_eq_ok.mp hit
    exact probed offset _ _ hit

/-- The newest state of the source is the one that is read. -/
theorem history_now (s : Listing σ) : s.history[s.past.length]? = some s.source := by
  simp [Listing.history]

theorem step_fresh {s s' : Listing σ} {event : ListingEvent σ} (inv : Fresh produce s)
    (prompt : PromptFill s event) (h : s.step produce event = some s') : Fresh produce s' := by
  cases event with
  | freezes frozen =>
    cases h
    exact ⟨inv.counted, inv.cache, inv.since, inv.requests⟩
  | setsPageSize n =>
    cases h
    have kept : Fresh produce { s with listPageSize := n } :=
      ⟨inv.counted, inv.cache, inv.since, inv.requests⟩
    exact kept.invalidate
  | changes source =>
    cases h
    exact inv.change source
  | invalidates =>
    cases h
    exact inv.invalidate
  | probes id kind params =>
    cases h
    apply inv.append (Nat.le_refl _)
    cases probed : probeList s.frozen s.listPageSize s.listCache kind.field params with
    | error e => exact True.intro
    | ok probe =>
      cases probe with
      | invalidCursor => exact True.intro
      | miss => exact True.intro
      | hit cached =>
        obtain ⟨late, builtFrom⟩ := inv.cache kind cached (probeList_hit probed)
        exact ⟨late, cached, rfl, builtFrom⟩
  | produces place =>
    simp only [Listing.step] at h
    split at h
    · rename_i r found
      have since := (inv.since r (List.mem_of_getElem? found)).trans inv.counted
      split at h
      · rename_i offset paginated cacheable phase
        cases produced : produce r.kind s.source >>=
            listResult paginated s.listPageSize offset r.kind.key with
        | error e =>
          rw [produced] at h
          cases h
          exact inv.setPhase found True.intro
        | ok result =>
          rw [produced] at h
          obtain ⟨items, read, made⟩ := bind_eq_ok.mp produced
          have builtFrom : BuiltFrom produce s.history r.kind result s.past.length :=
            ⟨s.source, items, paginated, s.listPageSize, offset, history_now s, read, made⟩
          simp only at h
          split at h
          · cases h
            exact inv.setPhase found ⟨since, builtFrom⟩
          · cases h
            exact inv.setPhase found ⟨since, result, rfl, builtFrom⟩
      · cases h
    · cases h
  | fills place =>
    simp only [Listing.step] at h
    split at h
    · rename_i r found
      split at h
      · rename_i result built phase
        cases h
        have fresh := inv.requests r (List.mem_of_getElem? found)
        simp only [ListRequest.Fresh, phase] at fresh
        simp only [PromptFill, found, phase] at prompt
        have filled := inv.fill prompt fresh.2
        exact filled.setPhase found ⟨fresh.1, result, rfl, fresh.2⟩
      · cases h
    · cases h

theorem run_fresh {source : σ} {events : List (ListingEvent σ)} {s : Listing σ}
    (prompt : Meets (Listing.step produce) PromptFill (Listing.initial source) events)
    (h : run (Listing.step produce) (Listing.initial source) events = some s) : Fresh produce s :=
  run_invariant (fun _ _ _ => step_fresh) (Fresh.initial produce source) prompt h

/-- A producer or a fill moves one request on, and touches nothing else but the cache. -/
theorem step_moves {s s' : Listing σ} {event : ListingEvent σ} {place : Nat}
    (moving : event = .produces place ∨ event = .fills place)
    (h : s.step produce event = some s') :
    ∃ r phase listCache builtAt, s.requests[place]? = some r ∧
      s' = { s with listCache, builtAt }.setPhase place r phase := by
  rcases moving with rfl | rfl
  · simp only [Listing.step] at h
    split at h
    · rename_i r found
      split at h
      · split at h
        · cases h
          exact ⟨r, _, s.listCache, s.builtAt, found, rfl⟩
        · split at h
          · cases h
            exact ⟨r, _, s.listCache, s.builtAt, found, rfl⟩
          · cases h
            exact ⟨r, _, s.listCache, s.builtAt, found, rfl⟩
      · cases h
    · cases h
  · simp only [Listing.step] at h
    split at h
    · rename_i r found
      split at h
      · cases h
        exact ⟨r, _, _, _, found, rfl⟩
      · cases h
    · cases h

/-- A request stays the same request. -/
def ListRequest.Same (r r' : ListRequest) : Prop :=
  r'.id = r.id ∧ r'.kind = r.kind ∧ r'.since = r.since

theorem setPhase_requests {s : Listing σ} {place other : Nat} {r r' : ListRequest}
    (found : s.requests[place]? = some r) (held : s.requests[other]? = some r')
    (phase : ListPhase) :
    ∃ r'', (s.setPhase other r' phase).requests[place]? = some r'' ∧ r.Same r'' := by
  by_cases here : other = place
  · subst here
    rw [found] at held
    cases held
    obtain ⟨bound, -⟩ := List.getElem?_eq_some_iff.mp found
    refine ⟨{ r with phase }, ?_, rfl, rfl, rfl⟩
    simp [Listing.setPhase, bound]
  · refine ⟨r, ?_, rfl, rfl, rfl⟩
    simp only [Listing.setPhase]
    rwa [List.getElem?_set_ne here]

theorem step_requests {s s' : Listing σ} {event : ListingEvent σ}
    (h : s.step produce event = some s') {place : Nat} {r : ListRequest}
    (found : s.requests[place]? = some r) : ∃ r', s'.requests[place]? = some r' ∧ r.Same r' := by
  cases event with
  | freezes frozen | setsPageSize n | changes source | invalidates =>
    cases h
    exact ⟨r, found, rfl, rfl, rfl⟩
  | probes id kind params =>
    cases h
    obtain ⟨bound, -⟩ := List.getElem?_eq_some_iff.mp found
    exact ⟨r, (List.getElem?_append_left bound).trans found, rfl, rfl, rfl⟩
  | produces other =>
    obtain ⟨r', phase, listCache, builtAt, held, rfl⟩ := step_moves (.inl rfl) h
    exact setPhase_requests (s := { s with listCache, builtAt }) found held phase
  | fills other =>
    obtain ⟨r', phase, listCache, builtAt, held, rfl⟩ := step_moves (.inr rfl) h
    exact setPhase_requests (s := { s with listCache, builtAt }) found held phase

theorem run_requests {s s' : Listing σ} {events : List (ListingEvent σ)}
    (h : run (Listing.step produce) s events = some s') {place : Nat} {r : ListRequest}
    (found : s.requests[place]? = some r) : ∃ r', s'.requests[place]? = some r' ∧ r.Same r' := by
  induction events generalizing s r with
  | nil =>
    cases h
    exact ⟨r, found, rfl, rfl, rfl⟩
  | cons e rest ih =>
    obtain ⟨next, stepped, h⟩ := run_cons_eq h
    obtain ⟨r', found', id, kind, since⟩ := step_requests stepped found
    obtain ⟨r'', found'', id', kind', since'⟩ := ih h found'
    exact ⟨r'', found'', id'.trans id, kind'.trans kind, since'.trans since⟩

/-- At least the first `seen` changes are followed by an invalidation. -/
def Listing.Seen (s : Listing σ) (seen : Nat) : Prop :=
  seen ≤ s.invalidated ∧ s.invalidated ≤ s.past.length

theorem step_seen {s s' : Listing σ} {event : ListingEvent σ} {seen : Nat} (before : s.Seen seen)
    (h : s.step produce event = some s') : s'.Seen seen := by
  cases event with
  | freezes frozen | probes id kind params =>
    cases h
    exact before
  | setsPageSize n | invalidates =>
    cases h
    exact ⟨before.1.trans before.2, Nat.le_refl _⟩
  | changes source =>
    cases h
    obtain ⟨before, counted⟩ := before
    refine ⟨before, ?_⟩
    simp only [List.length_append, List.length_singleton]
    omega
  | produces place =>
    obtain ⟨r, phase, listCache, builtAt, held, rfl⟩ := step_moves (.inl rfl) h
    exact before
  | fills place =>
    obtain ⟨r, phase, listCache, builtAt, held, rfl⟩ := step_moves (.inr rfl) h
    exact before

theorem run_seen {s s' : Listing σ} {events : List (ListingEvent σ)} {seen : Nat}
    (before : s.Seen seen) (h : run (Listing.step produce) s events = some s') : s'.Seen seen :=
  run_keeps (fun _ _ _ before h => step_seen before h) before h

theorem step_invalidation {s s' : Listing σ} {call : ListingEvent σ}
    (invalidating : call.isInvalidation = true) (h : s.step produce call = some s') :
    s'.Seen s.past.length := by
  cases call with
  | setsPageSize n | invalidates =>
    cases h
    exact ⟨Nat.le_refl _, Nat.le_refl _⟩
  | _ => cases invalidating

/-- Where every fill is prompt, a response whose probe came after an invalidation is made of
    the source as it was at the changes before that invalidation, or later. -/
theorem list_cache_fresh (source : σ) (front middle back : List (ListingEvent σ))
    (call : ListingEvent σ) (id : RequestId) (kind : ListKind) (params : Json)
    (called probed s : Listing σ) (invalidating : call.isInvalidation = true)
    (first : run (Listing.step produce) (Listing.initial source) front = some called)
    (second : run (Listing.step produce) called (call :: middle) = some probed)
    (third : run (Listing.step produce) probed (.probes id kind params :: back) = some s)
    (prompt : Meets (Listing.step produce) PromptFill (Listing.initial source)
      (front ++ call :: middle ++ .probes id kind params :: back))
    (r : ListRequest) (response : Json) (built : Nat)
    (asked : s.requests[probed.requests.length]? = some r)
    (answered : r.phase = .answered response built) :
    called.past.length ≤ built ∧ r.id = id ∧ r.kind = kind ∧
      ∃ result, response = makeSuccessResponse id result ∧
        BuiltFrom produce s.history kind result built := by
  have whole : run (Listing.step produce) (Listing.initial source)
      (front ++ call :: middle ++ .probes id kind params :: back) = some s := by
    rw [run_append, run_append, first, Option.bind_some, second, Option.bind_some, third]
  have fresh := (run_fresh prompt whole).requests r (List.mem_of_getElem? asked)
  simp only [ListRequest.Fresh, answered] at fresh
  obtain ⟨late, result, same, builtFrom⟩ := fresh
  obtain ⟨next, invalidated, second⟩ := run_cons_eq second
  have seen : probed.Seen called.past.length :=
    run_seen (step_invalidation invalidating invalidated) second
  obtain ⟨start, stepped, third⟩ := run_cons_eq third
  cases stepped
  obtain ⟨r', found, id', kind', since⟩ :=
    run_requests third (List.getElem?_concat_length (l := probed.requests))
  rw [asked] at found
  cases found
  have counted : probed.invalidated ≤ built := (Nat.le_of_eq since.symm).trans late
  refine ⟨seen.1.trans counted, id', kind', result, ?_, ?_⟩
  · rw [same, id']
  · rwa [kind'] at builtFrom

instance (s : Listing σ) (event : ListingEvent σ) : Decidable (PromptFill s event) := by
  unfold PromptFill
  split
  · split
    · split <;> infer_instance
    · infer_instance
  · infer_instance

def listed : ListKind → List Json → Except Exn (List Json) := fun _ items => .ok items

def listTwice : ListingEvent (List Json) := .probes (.int 2) .tools (.object [])

theorem grown_list_served :
    ∃ (called probed s : Listing (List Json)) (r : ListRequest) (built : Nat),
      run (Listing.step listed) (Listing.initial []) [.freezes true, .changes [.null]] =
        some called ∧
      run (Listing.step listed) called [.invalidates] = some probed ∧
      run (Listing.step listed) probed [listTwice, .produces 0, .fills 0] = some s ∧
      s.requests[probed.requests.length]? = some r ∧
      r.phase = .answered (makeSuccessResponse (.int 2)
        (.object [("tools", .array [.null])])) built ∧ called.past.length ≤ built := by
  refine ⟨_, _, _, _, _, rfl, rfl, rfl, rfl, rfl, ?_⟩
  have prompt : Meets (Listing.step listed) PromptFill (Listing.initial [])
      ([.freezes true, .changes [.null]] ++ .invalidates :: [] ++
        listTwice :: [.produces 0, .fills 0]) := by decide
  exact (list_cache_fresh [] _ _ _ .invalidates (.int 2) .tools (.object []) _ _ _ rfl rfl rfl rfl
    prompt _ _ _ rfl rfl).1

/-- The fill of a request that read the old list comes after the invalidation, and the next
    request is served from it. -/
theorem stale_list_served :
    ∃ (called probed s : Listing (List Json)) (r : ListRequest) (built : Nat),
      run (Listing.step listed) (Listing.initial [])
        [.freezes true, .probes (.int 1) .tools (.object []), .produces 0, .changes [.null]] =
          some called ∧
      run (Listing.step listed) called [.invalidates, .fills 0] = some probed ∧
      run (Listing.step listed) probed [listTwice] = some s ∧
      s.requests[probed.requests.length]? = some r ∧
      r.phase = .answered (makeSuccessResponse (.int 2) (.object [("tools", .array [])])) built ∧
      s.source = [.null] ∧ built < called.past.length :=
  ⟨_, _, _, _, _, rfl, rfl, rfl, rfl, rfl, rfl, by decide⟩

end CppMcp
