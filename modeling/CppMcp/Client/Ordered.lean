import CppMcp.Client.Moves
import CppMcp.Client.Outgoing
import CppMcp.Client.Works

namespace CppMcp

open Lib

/-- The arguments of an `on_progress` invocation of the request. -/
def Call.progressOf (pr : Nat) : Call → Option (Double × Option Double)
  | .progress place p total => if place = pr then some (p, total) else none
  | _ => none

/-- What the strand task that runs next reports to the request, when it handles a progress
    notification for it while it waits. -/
def Client.processes (pr : Nat) (c : Client) : ClientEvent → List (Double × Option Double)
  | .runTask =>
    match c.strand with
    | .message m :: _ =>
      match c.report m with
      | some (place, p, total) => if place = pr then [(p, total)] else []
      | none => []
    | _ => []
  | _ => []

def Mark.reported : Mark → Option (Double × Option Double)
  | .report p total => some (p, total)
  | .ended => none

/-- The end of a request is told last, and only of a request that is over. -/
structure InOrder (env : ClientEnv) (c : Client) : Prop where
  inline : env.callbackExecutor = false → c.callbackQueue = []
  listens : ∀ pr p total, .progress pr p total ∈ c.callbackQueue → c.Listens pr
  last : ∀ pr, (c.marks env pr).Pairwise fun first later => first = .ended → later = .ended
  isOver : ∀ pr, .ended ∈ c.marks env pr → c.Over pr

/-- A step that reports no progress: it tells the user at most of requests that are over. -/
structure Client.Hushed (env : ClientEnv) (c c' : Client) : Prop where
  inline : env.callbackExecutor = false → c'.callbackQueue = c.callbackQueue
  isOver : ∀ pr, c.Over pr → c'.Over pr
  marks : ∀ pr, ∃ ends, c'.marks env pr = c.marks env pr ++ ends ∧
    ∀ mark ∈ ends, mark = .ended ∧ c'.Over pr

theorem Client.Works.hushed {env : ClientEnv} {before c c' : Client} (works : before.Works env c')
    (calls : before.calls = c.calls) (callbackQueue : before.callbackQueue = c.callbackQueue)
    (requests : before.requests = c.requests) : c.Hushed env c' := by
  refine ⟨fun off => (works.inline off).trans callbackQueue,
    fun pr isOver => works.isOver pr (isOver.congr requests), fun pr => ?_⟩
  have same : before.marks env pr = c.marks env pr := by
    simp only [Client.marks, calls, callbackQueue]
  exact same ▸ works.marks pr

theorem Client.Hushed.of_eq {env : ClientEnv} {c c' : Client} (calls : c'.calls = c.calls)
    (callbackQueue : c'.callbackQueue = c.callbackQueue) (isOver : ∀ pr, c.Over pr → c'.Over pr) :
    c.Hushed env c' := by
  refine ⟨fun _ => callbackQueue, isOver, fun pr => ⟨[], ?_, by simp⟩⟩
  simp only [Client.marks, calls, callbackQueue, List.append_nil]

variable (env : ClientEnv)

theorem report_listens {c : Client} {m : Json} {pr : Nat} {p : Double} {total : Option Double}
    (h : c.report m = some (pr, p, total)) :
    ∃ r, c.requests[pr]? = some r ∧ r.state = .waiting ∧ r.onProgress = true := by
  have listened {token : RequestId} (found : c.listener token = some pr) :
      ∃ r, c.requests[pr]? = some r ∧ r.state = .waiting ∧ r.onProgress = true := by
    unfold Client.listener at found
    split at found
    · cases found
    · split at found
      · cases found
      · rename_i r present
        rw [Option.ite_none_right_eq_some] at found
        obtain ⟨⟨waits, on⟩, same⟩ := found
        cases same
        exact ⟨r, present, waits, on⟩
  unfold Client.report at h
  repeat' split at h
  all_goals try cases h
  obtain ⟨place, found, same⟩ := Option.map_eq_some_iff.mp h
  cases same
  exact listened found

theorem dispatchProgress_marks {c : Client} {pr : Nat} (listens : c.Listens pr) (p : Double)
    (total : Option Double) (place : Nat) :
    (c.dispatch env (.progress pr p total)).marks env place =
      c.marks env place ++ if pr = place then [.report p total] else [] := by
  unfold Client.dispatch
  split
  · rename_i posted
    simp only [Client.marks, posted, if_true, List.filterMap_append, List.append_assoc]
    by_cases same : pr = place <;> simp [CallbackJob.mark, same]
  · rename_i inline
    obtain ⟨r, present, on⟩ := listens
    have told : c.fire env (.progress pr p total) =
        c.invoke env "on_progress callback" (.progress pr p total) := by
      simp [Client.fire, present, on]
    obtain ⟨log, eq⟩ := invoke_eq env c "on_progress callback" (.progress pr p total)
    rw [told, eq]
    simp only [Client.marks, inline, List.filterMap_append]
    by_cases same : pr = place <;> simp [Call.mark, same]

/-- A step reports the progress it processes, runs a posted callback, or reports nothing. -/
inductive Client.Tells (c : Client) (event : ClientEvent) : Client → Prop where
  | reports {pr : Nat} {p : Double} {total : Option Double} {rest : List Task} {m : Json}
      (reported : c.report m = some (pr, p, total))
      (processes : ∀ place, c.processes place event = if pr = place then [(p, total)] else []) :
      Tells c event ({ c with strand := rest }.dispatch env (.progress pr p total))
  | fires {job : CallbackJob} {rest : List CallbackJob} (queued : c.callbackQueue = job :: rest)
      (processes : ∀ place, c.processes place event = []) :
      Tells c event ({ c with callbackQueue := rest }.fire env job)
  | hushed {c' : Client} (processes : ∀ place, c.processes place event = [])
      (hushed : c.Hushed env c') : Tells c event c'

theorem step_tells {c c' : Client} {event : ClientEvent} (h : c.step env event = some c') :
    c.Tells env event c' := by
  cases step_cases h with
  | runTask task rest head =>
    have ran := runTask_ran env { c with strand := rest } task
    generalize Client.runTask env { c with strand := rest } task = c' at ran ⊢
    cases ran with
    | sends m =>
      refine .hushed (fun place => by simp [Client.processes, head]) ?_
      unfold Client.rawSend
      split <;> exact .of_eq rfl rfl fun _ isOver => isOver
    | @serves m req parsed =>
      have unreported : c.report m = none := by simp [Client.report, parsed]
      refine .hushed (fun place => by simp [Client.processes, head, unreported]) ?_
      unfold Client.handleInboundRequest Client.dispatchInboundRequest Client.rawSend
      repeat' split
      all_goals exact .of_eq rfl rfl fun _ isOver => isOver
    | @reports m pr p total reported =>
      have reported : c.report m = some (pr, p, total) := reported
      exact .reports reported fun place => by simp [Client.processes, head, reported]
    | @accepts m resp ir c' parsed accepted works =>
      have unreported : c.report m = none := by simp [Client.report, parsed]
      refine .hushed (fun place => by simp [Client.processes, head, unreported]) ?_
      exact works.hushed rfl rfl rfl
    | works response quiet works =>
      refine .hushed (fun place => ?_) (works.hushed rfl rfl rfl)
      cases task with
      | message m =>
        have unreported : c.report m = none := (quiet m rfl).2
        simp [Client.processes, head, unreported]
      | _ => simp [Client.processes, head]
  | runCallback job rest queued => exact .fires queued fun _ => rfl
  | tests thread args =>
    refine .hushed (fun _ => rfl) ?_
    unfold Client.submitTest
    split <;> exact .of_eq rfl rfl fun _ isOver => isOver
  | builds thread args =>
    refine .hushed (fun _ => rfl) ?_
    unfold Client.submitBuild
    split
    · exact .of_eq rfl rfl fun _ isOver => isOver
    · refine .of_eq rfl rfl fun pr isOver => ?_
      obtain ⟨r, present, ended⟩ := isOver
      have bound := (List.getElem?_eq_some_iff.mp present).1
      exact ⟨r, by simp only [Client.submitted, List.getElem?_append_left bound, present], ended⟩
  | timerExpires pr =>
    have unarmed : c.Works env (c.update pr fun r => { r with timer := false }) :=
      update_works c pr fun _ waits => waits
    exact .hushed (fun _ => rfl) (.of_eq rfl rfl unarmed.isOver)
  | disconnectInline | stopDrainsInline =>
    exact .hushed (fun _ => rfl) ((drain_works env _ _).hushed rfl rfl rfl)
  | _ => exact .hushed (fun _ => rfl) (.of_eq rfl rfl fun _ isOver => isOver)

/-- Running a posted callback tells the user what was posted, or drops the end of a request
    that has no callback for it. -/
theorem fire_marks {c : Client} (inv : InOrder env c) {job : CallbackJob}
    {rest : List CallbackJob} (queued : c.callbackQueue = job :: rest) (pr : Nat) :
    (Client.marks env ({ c with callbackQueue := rest }.fire env job) pr).Sublist
      (c.marks env pr) ∧
    (Client.marks env ({ c with callbackQueue := rest }.fire env job) pr).filterMap Mark.reported =
      (c.marks env pr).filterMap Mark.reported := by
  have posted : env.callbackExecutor = true := by
    by_contra inline
    rw [inv.inline (by simpa using inline)] at queued
    cases queued
  have marks : c.marks env pr = c.calls.filterMap (Call.mark pr) ++
      ((job.mark pr).toList ++ rest.filterMap (CallbackJob.mark pr)) := by
    simp only [Client.marks, posted, if_true, queued]
    cases mark : job.mark pr <;> simp [mark]
  have left : Client.marks env { c with callbackQueue := rest } pr =
      c.calls.filterMap (Call.mark pr) ++ rest.filterMap (CallbackJob.mark pr) := by
    simp only [Client.marks, posted, if_true]
  rcases fire_cases env { c with callbackQueue := rest } job with same | ⟨label, call, same, told⟩
  · rw [same, left, marks]
    refine ⟨(List.Sublist.refl _).append (List.sublist_append_right _ _), ?_⟩
    -- A report that was posted is for a request that listens, so it is the end that is dropped.
    have unheard : (job.mark pr).toList.filterMap Mark.reported = [] := by
      cases job with
      | progress place p total =>
        obtain ⟨r, present, on⟩ := inv.listens place p total (queued ▸ List.mem_cons_self)
        have told := congrArg (fun c : Client => c.calls.length) same
        obtain ⟨log, eq⟩ := invoke_eq env { c with callbackQueue := rest } "on_progress callback"
          (.progress place p total)
        simp [Client.fire, present, on, eq] at told
      | terminal place => by_cases here : place = pr <;> simp [CallbackJob.mark, here, Mark.reported]
    simp only [List.filterMap_append, unheard, List.nil_append]
  · obtain ⟨log, eq⟩ := invoke_eq env { c with callbackQueue := rest } label call
    have unchanged : Client.marks env ({ c with callbackQueue := rest }.fire env job) pr =
        c.marks env pr := by
      rw [same, eq, marks]
      simp only [Client.marks, posted, if_true, List.filterMap_append, ← told pr]
      cases mark : call.mark pr <;> simp [mark]
    rw [unchanged]
    exact ⟨.refl _, rfl⟩

theorem fire_callbackQueue (c : Client) (job : CallbackJob) :
    (c.fire env job).callbackQueue = c.callbackQueue := by
  obtain ⟨calls, log, eq⟩ := fire_eq env c job
  rw [eq]

theorem step_inOrder {c c' : Client} {event : ClientEvent} (inv : InOrder env c)
    (h : c.step env event = some c') : InOrder env c' := by
  have heard : c.Utters (fun _ => True) (fun _ => True) c' :=
    step_utters env ⟨fun _ => True.intro, fun _ _ _ => True.intro, fun _ _ _ _ _ => True.intro⟩ h
      (fun _ _ => True.intro) (fun _ _ => True.intro) (fun _ _ _ _ => True.intro)
      fun _ _ _ _ _ _ _ => True.intro
  have listens (pr : Nat) (p : Double) (total : Option Double)
      (member : .progress pr p total ∈ c'.callbackQueue) : c'.Listens pr := by
    rcases heard.posted pr p total member with old | new
    · exact heard.listens pr (inv.listens pr p total old)
    · exact new
  cases step_tells env h with
  | @reports pr p total rest m reported processes =>
    obtain ⟨r, present, waits, on⟩ := report_listens reported
    have marks := dispatchProgress_marks env (c := { c with strand := rest }) ⟨r, present, on⟩ p total
    have ended (place : Nat) (told : .ended ∈ c.marks env place) : c.Over place ∧ pr ≠ place := by
      have isOver := inv.isOver place told
      refine ⟨isOver, ?_⟩
      rintro rfl
      obtain ⟨r', present', off⟩ := isOver
      rw [present] at present'
      cases present'
      exact off waits
    refine ⟨fun off => ?_, listens, fun place => ?_, fun place member => ?_⟩
    · simpa [Client.dispatch, off, fire_callbackQueue] using inv.inline off
    · rw [marks, List.pairwise_append]
      refine ⟨inv.last place, by split <;> simp, fun first member later new => ?_⟩
      rintro rfl
      rw [if_neg (ended place member).2] at new
      cases new
    · have told : .ended ∈ c.marks env place := by
        rw [marks, List.mem_append] at member
        rcases member with old | new
        · exact old
        · split at new <;> simp at new
      exact (ended place told).1.congr (dispatch_aside env _ _).requests
  | @fires job rest queued processes =>
    have fewer (pr : Nat) := (fire_marks env inv queued pr).1
    refine ⟨fun off => ?_, listens, fun pr => (inv.last pr).sublist (fewer pr), fun pr member => ?_⟩
    · rw [inv.inline off] at queued
      cases queued
    · exact (inv.isOver pr ((fewer pr).subset member)).congr (fire_aside env _ _).requests
  | hushed processes hushed =>
    refine ⟨fun off => (hushed.inline off).trans (inv.inline off), listens, fun pr => ?_,
      fun pr member => ?_⟩
    · obtain ⟨ends, marks, each⟩ := hushed.marks pr
      rw [marks, List.pairwise_append]
      refine ⟨inv.last pr, ?_, fun first _ later new _ => (each later new).1⟩
      exact List.pairwise_of_forall_mem_list fun first _ later new _ => (each later new).1
    · obtain ⟨ends, marks, each⟩ := hushed.marks pr
      rw [marks, List.mem_append] at member
      rcases member with old | new
      · exact hushed.isOver pr (inv.isOver pr old)
      · exact (each _ new).2

/-- What was reported, or waits to be, grows by what a step processes. -/
theorem step_reported {c c' : Client} {event : ClientEvent} (inv : InOrder env c)
    (h : c.step env event = some c') (pr : Nat) : (c'.marks env pr).filterMap Mark.reported =
      (c.marks env pr).filterMap Mark.reported ++ c.processes pr event := by
  cases step_tells env h with
  | @reports place p total rest m reported processes =>
    obtain ⟨r, present, -, on⟩ := report_listens reported
    have marks := dispatchProgress_marks env (c := { c with strand := rest }) ⟨r, present, on⟩ p total
    rw [marks, processes, List.filterMap_append]
    by_cases same : place = pr <;> simp [same, Mark.reported, Client.marks]
  | fires queued processes => rw [processes, List.append_nil, (fire_marks env inv queued pr).2]
  | hushed processes hushed =>
    obtain ⟨ends, marks, each⟩ := hushed.marks pr
    have none : ends.filterMap Mark.reported = [] := by
      refine List.filterMap_eq_nil_iff.mpr fun mark member => ?_
      rw [(each mark member).1]
      rfl
    rw [marks, processes, List.filterMap_append, none]

theorem initial_inOrder (transport : Bool) : InOrder env (Client.initial transport) := by
  have silent (pr : Nat) : (Client.initial transport).marks env pr = [] := by
    simp [Client.marks, Client.initial]
  refine ⟨fun _ => rfl, fun pr p total member => ?_, fun pr => ?_, fun pr member => ?_⟩
  · simp [Client.initial] at member
  · rw [silent]
    exact .nil
  · rw [silent] at member
    cases member

theorem mark_reported (pr : Nat) (call : Call) :
    (call.mark pr).bind Mark.reported = call.progressOf pr := by
  cases call with
  | progress place p total =>
    by_cases same : place = pr <;> simp [Call.mark, Call.progressOf, same, Mark.reported]
  | complete place _ | error place _ =>
    by_cases same : place = pr <;> simp [Call.mark, Call.progressOf, same, Mark.reported]
  | _ => rfl

theorem mark_finishes {pr : Nat} {call : Call} (finishes : call.finishes pr = true) :
    call.mark pr = some .ended := by
  cases call with
  | complete place _ | error place _ => simp [Call.mark, beq_iff_eq.mp finishes]
  | _ => cases finishes

/-- No progress after the end. In every run the `on_progress` invocations of a request are the
    reports the strand processed for it, in that order and possibly up to those the callback
    executor still holds, and none starts after its `on_complete` or `on_error` has. -/
theorem progress_precedes_end (transport : Bool) (events : List ClientEvent) (c : Client)
    (h : run (Client.step env) (Client.initial transport) events = some c) (pr : Nat) :
    c.calls.filterMap (Call.progressOf pr) <+:
      produced (Client.step env) (Client.processes pr) (Client.initial transport) events ∧
    (env.callbackExecutor = false → c.calls.filterMap (Call.progressOf pr) =
      produced (Client.step env) (Client.processes pr) (Client.initial transport) events) ∧
    ∀ front call back, c.calls = front ++ call :: back → call.finishes pr = true →
      ∀ later ∈ back, later.progressOf pr = none := by
  have inv := run_keeps (fun _ _ _ inv h => step_inOrder env inv h) (initial_inOrder env transport) h
  have history := run_produced (fun _ _ _ inv h => step_inOrder env inv h)
    (fun _ _ _ inv h => step_reported env inv h pr) (initial_inOrder env transport) h
  have told : (c.calls.filterMap (Call.mark pr)).filterMap Mark.reported =
      c.calls.filterMap (Call.progressOf pr) := by
    simp only [List.filterMap_filterMap, mark_reported]
  have start : ((Client.initial transport).marks env pr).filterMap Mark.reported = [] := by
    simp [Client.marks, Client.initial]
  rw [start, List.nil_append, Client.marks, List.filterMap_append, told] at history
  refine ⟨⟨_, history⟩, fun off => ?_, fun front call back split finishes later member => ?_⟩
  · simpa [off] using history
  · have last := inv.last pr
    rw [Client.marks, split, List.filterMap_append, List.filterMap_cons_some (mark_finishes finishes),
      List.append_assoc, List.pairwise_append, List.cons_append, List.pairwise_cons] at last
    rw [← mark_reported]
    cases mark : later.mark pr with
    | none => rfl
    | some m =>
      have after : m ∈ back.filterMap (Call.mark pr) := List.mem_filterMap.mpr ⟨later, member, mark⟩
      rw [last.2.1.1 m (List.mem_append_left _ after) rfl]
      rfl

/-- A ping with two reports of its progress, its answer, and a third report that is late; the
    callback executor runs what was posted afterwards. -/
def reportedPing : List ClientEvent :=
  let progress (p : Int) : Json := serializeNotification ⟨Protocol.notifProgress,
    some (.mk [("progressToken", .integer 2), ("progress", .ofInt p)])⟩
  handshake ++ submission { method := "ping", onComplete := true, onProgress := true } ++
    [.arrives (progress 1), .arrives (progress 2), .runTask, .runTask,
      .arrives (makeSuccessResponse (.int 2) (.integer 7)), .arrives (progress 3), .runTask,
      .runTask, .runCallback, .runCallback, .runCallback, .runCallback]

theorem reported_ping_in_order : ∃ c,
    run (Client.step { callbackExecutor := true }) (Client.initial true) reportedPing = some c ∧
    c.calls.length = 3 ∧ c.calls.filterMap (Call.progressOf 1) <+:
      produced (Client.step { callbackExecutor := true }) (Client.processes 1)
        (Client.initial true) reportedPing := by
  have shape : (run (Client.step { callbackExecutor := true }) (Client.initial true)
      reportedPing).map (fun c => c.calls.length) = some 3 := by decide +kernel
  obtain ⟨c, h, three⟩ := Option.map_eq_some_iff.mp shape
  exact ⟨c, h, three, (progress_precedes_end { callbackExecutor := true } true _ c h 1).1⟩

end CppMcp
