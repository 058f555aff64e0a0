import Mathlib.Tactic.Common

namespace CppMcp.Lib

/-- A system takes an event in a state, or refuses it. -/
abbrev System (σ ε : Type) := σ → ε → Option σ

def run {σ ε : Type} (step : System σ ε) : σ → List ε → Option σ
  | s, [] => some s
  | s, e :: rest => (step s e).bind fun next => run step next rest

/-- Every step of the run meets a condition on the state before it and its event. -/
def Meets {σ ε : Type} (step : System σ ε) (cond : σ → ε → Prop) : σ → List ε → Prop
  | _, [] => True
  | s, e :: rest => cond s e ∧ ∀ next, step s e = some next → Meets step cond next rest

/-- What the steps of a run put out, each in the state it is taken in. -/
def produced {σ ε α : Type} (step : System σ ε) (out : σ → ε → List α) : σ → List ε → List α
  | _, [] => []
  | s, e :: rest => out s e ++ match step s e with
    | none => []
    | some next => produced step out next rest

section
variable {σ ε : Type} {step : System σ ε} {cond : σ → ε → Prop}

@[simp] theorem run_nil (s : σ) : run step s [] = some s := rfl

theorem run_cons_eq {s s' : σ} {e : ε} {rest : List ε}
    (h : run step s (e :: rest) = some s') :
    ∃ next, step s e = some next ∧ run step next rest = some s' :=
  Option.bind_eq_some_iff.mp h

theorem run_append (s : σ) (front back : List ε) :
    run step s (front ++ back) = (run step s front).bind fun next => run step next back := by
  induction front generalizing s with
  | nil => rfl
  | cons e front ih =>
    simp only [List.cons_append, run, Option.bind_assoc]
    cases step s e with
    | none => rfl
    | some next => exact ih next

theorem run_split {s s' : σ} {front back : List ε} (h : run step s (front ++ back) = some s') :
    ∃ t, run step s front = some t ∧ run step t back = some s' := by
  rw [run_append] at h
  exact Option.bind_eq_some_iff.mp h

/-- An invariant that every admitted step keeps holds after every admitted run. -/
theorem run_invariant {Inv : σ → Prop}
    (keeps : ∀ s e s', Inv s → cond s e → step s e = some s' → Inv s')
    {s s' : σ} {events : List ε} (start : Inv s) (meets : Meets step cond s events)
    (h : run step s events = some s') : Inv s' := by
  induction events generalizing s with
  | nil => cases h; exact start
  | cons e rest ih =>
    obtain ⟨next, stepped, h⟩ := run_cons_eq h
    exact ih (keeps s e next start meets.1 stepped) (meets.2 next stepped) h

/-- What holds after a run held all along it, or is owed to a step of the run and holds ever
    since. -/
theorem run_since_last {P : σ → Prop} {brings : σ → ε → Prop}
    (owed : ∀ s e s', step s e = some s' → P s' → P s ∨ brings s e) {s s' : σ} {events : List ε}
    (h : run step s events = some s') (holds : P s') :
    (∀ front back t, events = front ++ back → run step s front = some t → P t) ∨
      ∃ front e back t, events = front ++ e :: back ∧ run step s front = some t ∧ brings t e ∧
        ∀ mid rest u, back = mid ++ rest → run step t (e :: mid) = some u → P u := by
  induction events generalizing s with
  | nil =>
    left
    intro front back t split reached
    obtain ⟨rfl, -⟩ := List.append_eq_nil_iff.mp split.symm
    exact Option.some.inj (h.symm.trans reached) ▸ holds
  | cons e rest ih =>
    obtain ⟨next, stepped, h⟩ := run_cons_eq h
    have on (mid : List ε) : run step s (e :: mid) = run step next mid := by simp [run, stepped]
    rcases ih h with along | ⟨front, e', back, t, split, reached, brought, since⟩
    · rcases owed s e next stepped (along [] rest next rfl rfl) with held | brought
      · left
        intro front back t split reached
        cases front with
        | nil => exact Option.some.inj reached ▸ held
        | cons first front =>
          obtain ⟨rfl, tail⟩ := List.cons.inj split
          exact along front back t tail ((on front).symm.trans reached)
      · right
        refine ⟨[], e, rest, s, rfl, rfl, brought, fun mid back u split reached => ?_⟩
        exact along mid back u split ((on mid).symm.trans reached)
    · exact .inr ⟨e :: front, e', back, t, by rw [split, List.cons_append],
        (on front).trans reached, brought, since⟩

/-- What holds after a run held before it, or is owed to a step of the run. -/
theorem run_since {P : σ → Prop} {brings : σ → ε → Prop}
    (owed : ∀ s e s', step s e = some s' → P s' → P s ∨ brings s e) {s s' : σ} {events : List ε}
    (h : run step s events = some s') (holds : P s') :
    P s ∨ ∃ front e back t, events = front ++ e :: back ∧ run step s front = some t ∧ brings t e := by
  rcases run_since_last owed h holds with along | ⟨front, e, back, t, split, reached, brought, -⟩
  · exact .inl (along [] events s rfl rfl)
  · exact .inr ⟨front, e, back, t, split, reached, brought⟩

theorem produced_cons {α : Type} {out : σ → ε → List α} {s next : σ} {e : ε} {rest : List ε}
    (stepped : step s e = some next) :
    produced step out s (e :: rest) = out s e ++ produced step out next rest := by
  simp [produced, stepped]

theorem produced_append {α : Type} {out : σ → ε → List α} {s t : σ} {front back : List ε}
    (h : run step s front = some t) :
    produced step out s (front ++ back) = produced step out s front ++ produced step out t back := by
  induction front generalizing s with
  | nil =>
    cases h
    rfl
  | cons e rest ih =>
    obtain ⟨next, stepped, h⟩ := run_cons_eq h
    rw [List.cons_append, produced_cons stepped, produced_cons stepped, ih h, List.append_assoc]

/-- A history to which every step adds what it puts out grows by what the run does. -/
theorem run_produced {α : Type} {Inv : σ → Prop} {history : σ → List α} {out : σ → ε → List α}
    (keeps : ∀ s e s', Inv s → step s e = some s' → Inv s')
    (adds : ∀ s e s', Inv s → step s e = some s' → history s' = history s ++ out s e)
    {s s' : σ} {events : List ε} (start : Inv s) (h : run step s events = some s') :
    history s' = history s ++ produced step out s events := by
  induction events generalizing s with
  | nil =>
    cases h
    simp [produced]
  | cons e rest ih =>
    obtain ⟨next, stepped, h⟩ := run_cons_eq h
    rw [ih (keeps s e next start stepped) h, adds s e next start stepped]
    simp [produced, stepped]

/-- A condition on the events alone is met when each event meets it. -/
theorem meets_of_forall {good : ε → Prop} {events : List ε} (all : ∀ e ∈ events, good e) (s : σ) :
    Meets step (fun _ e => good e) s events := by
  induction events generalizing s with
  | nil => exact True.intro
  | cons e rest ih =>
    exact ⟨all e List.mem_cons_self, fun next _ =>
      ih (fun e member => all e (List.mem_cons_of_mem _ member)) next⟩

theorem Meets.and {other : σ → ε → Prop} {s : σ} {events : List ε} (left : Meets step cond s events)
    (right : Meets step other s events) : Meets step (fun s e => cond s e ∧ other s e) s events := by
  induction events generalizing s with
  | nil => exact True.intro
  | cons e rest ih =>
    exact ⟨⟨left.1, right.1⟩, fun next stepped => ih (left.2 next stepped) (right.2 next stepped)⟩

/-- An invariant that every step keeps holds after every run. -/
theorem run_keeps {Inv : σ → Prop} (keeps : ∀ s e s', Inv s → step s e = some s' → Inv s')
    {s s' : σ} {events : List ε} (start : Inv s) (h : run step s events = some s') : Inv s' := by
  have meets : Meets step (fun _ _ => True) s events :=
    meets_of_forall (fun _ _ => True.intro) s
  exact run_invariant (fun s e s' inv _ => keeps s e s' inv) start meets h

theorem Meets.split {s : σ} {front back : List ε} (meets : Meets step cond s (front ++ back)) :
    Meets step cond s front ∧ ∀ t, run step s front = some t → Meets step cond t back := by
  induction front generalizing s with
  | nil =>
    refine ⟨True.intro, fun t h => ?_⟩
    cases h
    exact meets
  | cons e front ih =>
    refine ⟨⟨meets.1, fun next stepped => (ih (meets.2 next stepped)).1⟩, fun t h => ?_⟩
    obtain ⟨next, stepped, h⟩ := run_cons_eq h
    exact (ih (meets.2 next stepped)).2 t h

/-- The step in which something came to hold. -/
theorem run_turns {P : σ → Prop} {s s' : σ} {events : List ε} (h : run step s events = some s')
    (holds : P s') : P s ∨ ∃ front e back t t', events = front ++ e :: back ∧
      run step s front = some t ∧ step t e = some t' ∧ ¬ P t ∧ P t' := by
  have owed : ∀ s e s', step s e = some s' → P s' →
      P s ∨ ∃ t', step s e = some t' ∧ ¬ P s ∧ P t' := by
    intro s e s' stepped after
    by_cases before : P s
    · exact .inl before
    · exact .inr ⟨s', stepped, before, after⟩
  refine (run_since owed h holds).imp_right ?_
  rintro ⟨front, e, back, t, split, reached, t', stepped, before, after⟩
  exact ⟨front, e, back, t, t', split, reached, stepped, before, after⟩

/-- Of two places in a list one is the first. -/
theorem places_cases {front front' back back' : List ε} {e e' : ε}
    (same : front ++ e :: back = front' ++ e' :: back') :
    front = front' ∨ (∃ mid, front' = front ++ e :: mid) ∨ ∃ mid, front = front' ++ e' :: mid := by
  rcases List.append_eq_append_iff.mp same with ⟨mid, whole, rest⟩ | ⟨mid, whole, rest⟩
  · cases mid with
    | nil => exact .inl (whole.trans (List.append_nil front)).symm
    | cons a mid =>
      cases rest
      exact .inr (.inl ⟨mid, whole⟩)
  · cases mid with
    | nil => exact .inl (whole.trans (List.append_nil front'))
    | cons a mid =>
      cases rest
      exact .inr (.inr ⟨mid, whole⟩)

/-- What spends something that does not come back, and cannot be done without it, is done at one
    place of a run at most. -/
theorem run_once {Inv spent : σ → Prop} {acts : σ → ε → Prop}
    (keeps : ∀ s e s', Inv s → cond s e → step s e = some s' → Inv s')
    (spends : ∀ s e s', Inv s → cond s e → acts s e → step s e = some s' → spent s')
    (stays : ∀ s e s', Inv s → cond s e → spent s → step s e = some s' → spent s')
    (excludes : ∀ s e, Inv s → spent s → ¬ acts s e)
    {s : σ} {front front' back back' : List ε} {e e' : ε} {t t' : σ} (start : Inv s)
    (meets : Meets step cond s (front ++ e :: back))
    (same : front ++ e :: back = front' ++ e' :: back')
    (reached : run step s front = some t) (acted : acts t e)
    (reached' : run step s front' = some t') (acted' : acts t' e') : front = front' := by
  have never {front mid back : List ε} {e e' : ε} {t t' : σ}
      (meets : Meets step cond s (front ++ e :: mid ++ e' :: back))
      (reached : run step s front = some t) (acted : acts t e)
      (reached' : run step s (front ++ e :: mid) = some t') : ¬ acts t' e' := by
    obtain ⟨through, -⟩ := meets.split
    obtain ⟨before, along⟩ := through.split
    have inv := run_invariant keeps start before reached
    obtain ⟨u, same, after⟩ := run_split reached'
    obtain rfl := Option.some.inj (reached.symm.trans same)
    obtain ⟨next, stepped, later⟩ := run_cons_eq after
    have met := along t reached
    have first : Inv next ∧ spent next :=
      ⟨keeps t e next inv met.1 stepped, spends t e next inv met.1 acted stepped⟩
    have both : Inv t' ∧ spent t' := by
      apply @run_invariant _ _ step cond (fun s => Inv s ∧ spent s) _ _ _ _ first
        (met.2 next stepped) later
      intro s e s' inv met stepped
      exact ⟨keeps s e s' inv.1 met stepped, stays s e s' inv.1 met inv.2 stepped⟩
    exact excludes t' e' both.1 both.2
  rcases places_cases same with eq | ⟨mid, rfl⟩ | ⟨mid, rfl⟩
  · exact eq
  · exact absurd acted' (never (same ▸ meets) reached acted reached')
  · exact absurd acted (never meets reached' acted' reached)

/-- Where every admitted step takes something off the work that is left, no run is longer. -/
theorem run_work {work : σ → Nat}
    (less : ∀ s e s', cond s e → step s e = some s' → work s' < work s)
    {s s' : σ} {events : List ε} (meets : Meets step cond s events)
    (h : run step s events = some s') : events.length + work s' ≤ work s := by
  induction events generalizing s with
  | nil =>
    cases h
    simp
  | cons e rest ih =>
    obtain ⟨next, stepped, h⟩ := run_cons_eq h
    have first := less s e next meets.1 stepped
    have later := ih (meets.2 next stepped) h
    simp only [List.length_cons]
    omega

/-- A run meets a condition exactly if every step of it does, in the state it is taken in. -/
theorem meets_iff {s s' : σ} {events : List ε} (h : run step s events = some s') :
    Meets step cond s events ↔
      ∀ front e back t, events = front ++ e :: back → run step s front = some t → cond t e := by
  induction events generalizing s with
  | nil => simp [Meets]
  | cons e rest ih =>
    obtain ⟨next, stepped, h⟩ := run_cons_eq h
    constructor
    · rintro ⟨met, later⟩ front e' back t split reached
      cases front with
      | nil =>
        cases reached
        obtain ⟨rfl, -⟩ := List.cons.inj split
        exact met
      | cons first front =>
        obtain ⟨rfl, tail⟩ := List.cons.inj split
        obtain ⟨next', stepped', reached⟩ := run_cons_eq reached
        obtain rfl : next = next' := by simpa [stepped] using stepped'
        exact (ih h).mp (later next stepped) front e' back t tail reached
    · intro all
      refine ⟨all [] e rest s rfl rfl, fun next' stepped' => ?_⟩
      obtain rfl : next = next' := by simpa [stepped] using stepped'
      refine (ih h).mpr fun front e' back t split reached => ?_
      exact all (e :: front) e' back t (by rw [split, List.cons_append])
        (by simpa [run, stepped] using reached)

/-- Where a property survives a step exactly if the step meets a condition, it holds all along a
    run exactly if the run meets it. -/
theorem along_iff_meets {P : σ → Prop}
    (exact : ∀ s e s', P s → step s e = some s' → (P s' ↔ cond s e)) {s s' : σ} {events : List ε}
    (start : P s) (h : run step s events = some s') :
    (∀ front back t, events = front ++ back → run step s front = some t → P t) ↔
      Meets step cond s events := by
  induction events generalizing s with
  | nil =>
    refine ⟨fun _ => True.intro, fun _ front back t split reached => ?_⟩
    obtain ⟨rfl, -⟩ := List.append_eq_nil_iff.mp split.symm
    cases reached
    exact start
  | cons e rest ih =>
    obtain ⟨next, stepped, h⟩ := run_cons_eq h
    have first := exact s e next start stepped
    constructor
    · intro along
      have kept : P next := along [e] rest next rfl (by simp [run, stepped])
      refine ⟨first.mp kept, fun next' stepped' => ?_⟩
      obtain rfl : next = next' := by simpa [stepped] using stepped'
      refine (ih kept h).mp fun front back t split reached => ?_
      exact along (e :: front) back t (by rw [split, List.cons_append])
        (by simpa [run, stepped] using reached)
    · rintro ⟨met, later⟩ front back t split reached
      cases front with
      | nil =>
        cases reached
        exact start
      | cons e' front =>
        obtain ⟨rfl, tail⟩ := List.cons.inj split
        obtain ⟨next', stepped', reached⟩ := run_cons_eq reached
        obtain rfl : next = next' := by simpa [stepped] using stepped'
        exact (ih (first.mpr met) h).mpr (later next stepped) front back t tail reached

/-- Where related states take the same steps into related states, they take the same runs. -/
theorem run_related {τ : Type} {other : System τ ε} {R : σ → τ → Prop}
    (keeps : ∀ s t e s', R s t → step s e = some s' → ∃ t', other t e = some t' ∧ R s' t')
    {s s' : σ} {t : τ} {events : List ε} (start : R s t) (h : run step s events = some s') :
    ∃ t', run other t events = some t' ∧ R s' t' := by
  induction events generalizing s t with
  | nil =>
    cases h
    exact ⟨t, rfl, start⟩
  | cons e rest ih =>
    obtain ⟨next, stepped, h⟩ := run_cons_eq h
    obtain ⟨next', stepped', related⟩ := keeps s t e next start stepped
    obtain ⟨t', h', final⟩ := ih related h
    exact ⟨t', by simp [run, stepped', h'], final⟩

/-- Where every step leaves a part of the state or takes that part through a step of another
    system, a run takes it through a run of that system. -/
theorem run_projects {τ δ : Type} {other : System τ δ} (part : σ → τ)
    (drives : ∀ s e s', step s e = some s' → part s' = part s ∨ ∃ d, other (part s) d = some (part s'))
    {s s' : σ} {events : List ε} (h : run step s events = some s') :
    ∃ steps, run other (part s) steps = some (part s') := by
  induction events generalizing s with
  | nil =>
    cases h
    exact ⟨[], rfl⟩
  | cons e rest ih =>
    obtain ⟨next, stepped, h⟩ := run_cons_eq h
    obtain ⟨steps, later⟩ := ih h
    rcases drives s e next stepped with same | ⟨d, driven⟩
    · exact ⟨steps, same ▸ later⟩
    · exact ⟨d :: steps, by simp [run, driven, later]⟩

/-- Two conditions that agree on some events, wherever an invariant that admitted steps keep holds,
    admit the same runs of these events. -/
theorem meets_congr_among {Inv : σ → Prop} {good : ε → Prop} {other : σ → ε → Prop}
    (keeps : ∀ s e s', Inv s → good e → cond s e → step s e = some s' → Inv s')
    (agree : ∀ s e, Inv s → good e → (cond s e ↔ other s e)) {s : σ} {events : List ε}
    (start : Inv s) (all : ∀ e ∈ events, good e) :
    Meets step cond s events ↔ Meets step other s events := by
  induction events generalizing s with
  | nil => exact Iff.rfl
  | cons e rest ih =>
    have first := all e List.mem_cons_self
    have same := agree s e start first
    have later (met : cond s e) (next : σ) (stepped : step s e = some next) :=
      ih (keeps s e next start first met stepped) fun e member => all e (List.mem_cons_of_mem _ member)
    constructor
    · rintro ⟨met, meets⟩
      exact ⟨same.mp met, fun next stepped => (later met next stepped).mp (meets next stepped)⟩
    · rintro ⟨met, meets⟩
      have met := same.mpr met
      exact ⟨met, fun next stepped => (later met next stepped).mpr (meets next stepped)⟩

/-- Two conditions that agree wherever an invariant holds admit the same runs. -/
theorem meets_congr {Inv : σ → Prop} {other : σ → ε → Prop}
    (keeps : ∀ s e s', Inv s → step s e = some s' → Inv s')
    (agree : ∀ s e, Inv s → (cond s e ↔ other s e)) {s : σ} (start : Inv s) (events : List ε) :
    Meets step cond s events ↔ Meets step other s events :=
  meets_congr_among (fun s e s' inv _ _ => keeps s e s' inv) (fun s e inv (_ : True) => agree s e inv)
    start fun _ _ => True.intro

instance decidableMeets [∀ s e, Decidable (cond s e)] (s : σ) (events : List ε) :
    Decidable (Meets step cond s events) :=
  match events with
  | [] => .isTrue True.intro
  | e :: rest =>
    match h : step s e with
    | none =>
      decidable_of_iff (cond s e) ⟨fun met => ⟨met, fun _ stepped => by simp [h] at stepped⟩, (·.1)⟩
    | some next =>
      have : Decidable (Meets step cond next rest) := decidableMeets next rest
      decidable_of_iff (cond s e ∧ Meets step cond next rest)
        ⟨fun met => ⟨met.1, fun next' stepped => by
          have same : next = next' := by simpa [h] using stepped
          exact same ▸ met.2⟩, fun met => ⟨met.1, met.2 next h⟩⟩

end

end CppMcp.Lib
