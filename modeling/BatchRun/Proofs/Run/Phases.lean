import BatchRun.Cluster.Api
import BatchRun.Proofs.Run.Order
import BatchRun.Proofs.Run.Watches
import Mathlib.Data.List.Destutter

/-!
# The phases that a pod watch reports

Of the phases that are observed in a row the changes are reported: each one starts where the one
before it has ended. A pod watch observes the pods that it hears of in time, up to the first that is
not pending, so it reports one change or two.

* `PhaseChange.Chained`: changes that are those in a row of phases,
  `PhaseChange.chained_observeAll`;
* `Course.seenBy`: what a view shows by a time, **`Course.Ordered.seen_within`**;
* `Step.told`, `Reply.heard`: the events of a watch that come by a time;
* `PodStart.taken`: those of them that are taken, `PodStart.chain_taken_cons`: one of them,
  **`seenBy_followSteps`**: all of them;
* **`podStart_changes`**: the changes that are reported are those of the pods that are taken;
* `Server.reserved_watchPods`: a client of a server reports none of its own.
-/

namespace BatchRun

variable {σ ε α β γ κ : Type}

/-! ## Changes in a row -/

namespace PhaseChange

/-- The changes are those in a row of phases that comes after a last one: they come to the phases
without immediate repetitions, and each one starts where the one before it has ended. -/
structure Chained (last : Option PodPhase) (phases : List PodPhase) (changes : List PhaseChange) :
    Prop where
  afters : last.toList ++ changes.map after = (last.toList ++ phases).destutter (· ≠ ·)
  first : ∀ change ∈ changes.head?, change.before = last
  linked : changes.IsChain fun (c d : PhaseChange) => d.before = some c.after
  proper : ∀ change ∈ changes, change.before ≠ some change.after

theorem observe_of_eq {last : Option PodPhase} {phase : PodPhase} (h : last = some phase) :
    observe last phase = (none, some phase) := by
  rw [observe, if_pos h, h]

theorem observe_of_ne {last : Option PodPhase} {phase : PodPhase} (h : last ≠ some phase) :
    observe last phase = (some ⟨last, phase⟩, some phase) := if_neg h

@[simp] theorem snd_observe (last : Option PodPhase) (phase : PodPhase) :
    (observe last phase).2 = some phase := by
  by_cases h : last = some phase
  · rw [observe_of_eq h]
  · rw [observe_of_ne h]

@[simp] theorem chain_nil (last : Option PodPhase) : chain last [] = [] := rfl

theorem chain_cons (last : Option PodPhase) (phase : PodPhase) (rest : List PodPhase) :
    chain last (phase :: rest) = (observe last phase).1.toList ++ chain (some phase) rest := by
  rw [← snd_observe last phase]
  rfl

theorem Chained.repeated {phase : PodPhase} {rest : List PodPhase} {changes : List PhaseChange}
    (h : Chained (some phase) rest changes) : Chained (some phase) (phase :: rest) changes where
  afters := by
    rw [h.afters]
    simp [List.destutter_cons']
  first := h.first
  linked := h.linked
  proper := h.proper

theorem Chained.changed {last : Option PodPhase} {phase : PodPhase} {rest : List PodPhase}
    {changes : List PhaseChange} (hne : last ≠ some phase)
    (h : Chained (some phase) rest changes) :
    Chained last (phase :: rest) (⟨last, phase⟩ :: changes) where
  afters := by
    have hafters : phase :: changes.map after = rest.destutter' (· ≠ ·) phase := h.afters
    cases last with
    | none =>
      show phase :: changes.map after = rest.destutter' (· ≠ ·) phase
      exact hafters
    | some p =>
      have hp : p ≠ phase := fun heq => hne (congrArg some heq)
      show p :: phase :: changes.map after = (phase :: rest).destutter' (· ≠ ·) p
      rw [List.destutter'_cons_pos _ hp, hafters]
  first := by simp
  linked := by
    rw [List.isChain_cons]
    exact ⟨h.first, h.linked⟩
  proper := List.forall_mem_cons.2 ⟨hne, h.proper⟩

/-- **The changes in a row of phases are chained, and the last phase is the last one fed.** By
induction on the phases: each one is a repetition or a change. -/
theorem chained_observeAll (last : Option PodPhase) (phases : List PodPhase) :
    Chained last phases (observeAll last phases).1 ∧
      (observeAll last phases).2 = phases.getLast?.or last := by
  induction phases generalizing last with
  | nil =>
    refine ⟨⟨?_, by simp [observeAll], .nil, by simp [observeAll]⟩, rfl⟩
    cases last <;> rfl
  | cons phase rest ih =>
    obtain ⟨hchained, hlast⟩ := ih (some phase)
    refine ⟨?_, ?_⟩
    · show Chained last (phase :: rest) (chain last (phase :: rest))
      rw [chain_cons]
      by_cases h : last = some phase
      · rw [observe_of_eq h, h]
        exact hchained.repeated
      · rw [observe_of_ne h]
        exact hchained.changed h
    · rw [observeAll, snd_observe, hlast, List.getLast?_cons]
      cases rest.getLast? <;> rfl

theorem chained_chain (phases : List PodPhase) : Chained none phases (chain none phases) :=
  (chained_observeAll none phases).1

end PhaseChange

/-! ## What is shown by a time -/

theorem Entry.Sorted.takeWhile_eq_filter {es : List Entry} (h : Entry.Sorted es) (limit : Nat) :
    es.takeWhile (fun (e : Entry) => e.time ≤ limit) =
      es.filter fun (e : Entry) => e.time ≤ limit := by
  induction es with
  | nil => rfl
  | cons e es ih =>
    obtain ⟨hfirst, hrest⟩ := List.pairwise_cons.1 h
    by_cases he : e.time ≤ limit
    · rw [List.takeWhile_cons_of_pos (by simpa using he),
        List.filter_cons_of_pos (by simpa using he), ih hrest]
    · rw [List.takeWhile_cons_of_neg (by simpa using he), eq_comm, List.filter_eq_nil_iff]
      intro d hd hbefore
      rcases List.mem_cons.1 hd with rfl | hd
      · exact he (of_decide_eq_true hbefore)
      · exact he (Nat.le_trans (hfirst d hd) (of_decide_eq_true hbefore))

namespace Course

variable {view : Deed → Option γ}

/-- What a view shows of the deeds of a course that are done by a time. -/
def seenBy (view : Deed → Option γ) (limit : Nat) (c : Course ε α) : List γ :=
  Entry.shown view (c.entries.filter fun (e : Entry) => e.time ≤ limit)

theorem seenBy_eq_nil {c : Course ε α} (h : c.seen view = []) (limit : Nat) :
    c.seenBy view limit = [] := by
  rw [seen, Entry.shown_eq_nil_iff] at h
  exact (Entry.shown_eq_nil_iff view).2 fun e he => h e (List.mem_of_mem_filter he)

theorem filter_later (n limit : Nat) (es : List Entry) :
    (es.map (Entry.later n)).filter (fun (e : Entry) => e.time ≤ limit) =
      if n ≤ limit then (es.filter fun (e : Entry) => e.time ≤ limit - n).map (Entry.later n)
      else [] := by
  rw [List.filter_map]
  split
  · congr 1
    refine List.filter_congr fun e _ => decide_eq_decide.2 ?_
    simp only [Entry.later]
    omega
  · rename_i hlate
    rw [List.filter_eq_nil_iff.2, List.map_nil]
    intro e _ hearly
    exact hlate (Nat.le_trans (Nat.le_add_right n e.time) (of_decide_eq_true hearly))

/-- **What two activities in a row show by a time: the second has what the first has left.** -/
theorem seenBy_bind (view : Deed → Option γ) (limit : Nat) (c : Course ε α)
    (f : α → Course ε β) : (c.bind f).seenBy view limit =
      c.seenBy view limit ++ c.ending.value?.elim [] fun (a : α) =>
        if c.length ≤ limit then (f a).seenBy view (limit - c.length) else [] := by
  rw [seenBy, entries_bind, List.filter_append, Entry.shown_append]
  congr 1
  cases c.ending.value? with
  | none => rfl
  | some a =>
    simp only [Option.elim_some]
    rw [filter_later]
    split
    · rw [Entry.shown_later, seenBy]
    · rfl

theorem seenBy_bind_of_forall {c : Course ε α} {f : α → Course ε β}
    (h : ∀ a, (f a).seen view = []) (limit : Nat) :
    (c.bind f).seenBy view limit = c.seenBy view limit := by
  rw [seenBy_bind]
  cases c.ending.value? with
  | none => exact List.append_nil _
  | some a =>
    simp only [Option.elim_some, seenBy_eq_nil (h a), ite_self, List.append_nil]

theorem seenBy_held (hopened : ∀ x, view (.opened x) = none)
    (hreleased : ∀ x, view (.released x) = none) (connection : Connection) (limit : Nat)
    (c : Course ε α) : (c.held connection).seenBy view limit = c.seenBy view limit := by
  have hopening : Entry.shown view
      ([⟨0, false, .opened connection⟩].filter fun (e : Entry) => e.time ≤ limit) = [] := by
    simp [hopened]
  have hclosing : Entry.shown view ([⟨c.length, false, .released connection⟩].filter
      fun (e : Entry) => e.time ≤ limit) = [] := by
    by_cases h : c.length ≤ limit <;> simp [h, hreleased]
  unfold held seenBy
  dsimp only
  rw [← List.singleton_append, List.filter_append, List.filter_append, Entry.shown_append,
    Entry.shown_append, hopening, List.nil_append]
  split
  · rw [hclosing, List.append_nil]
  · exact List.append_nil _

/-- **A deadline cuts off exactly what is not shown by it**, if nothing of what the deadline itself
brings is shown. -/
theorem Ordered.seen_within {c : Course ε α} (h : c.Ordered)
    (hreleased : ∀ x, view (.released x) = none) (limit : Nat) {late : Notice}
    (hlate : view (.note late) = none) (error : ε) :
    (c.within limit late error).seen view = c.seenBy view limit := by
  unfold Course.within
  split
  · rename_i hends
    have hall : c.entries.filter (fun (e : Entry) => e.time ≤ limit) = c.entries :=
      List.filter_eq_self.2 fun e he =>
        decide_eq_true (Nat.le_trans (h.bounded e he) (endsBy_iff.1 hends).2)
    rw [seenBy, hall, seen]
  · rw [seen, h.sorted.takeWhile_eq_filter]
    simp [seenBy, Entry.shown_releases hreleased, hlate]

end Course

namespace Act

variable {view : Deed → Option γ}

theorem notes_apply (ns : List Notice) (s : σ) : (notes ns s : Course ε (Unit × σ)) =
    ⟨ns.map fun (n : Notice) => ⟨0, false, .note n⟩, .returned ((), s), 0⟩ := by
  induction ns with
  | nil => rfl
  | cons n ns ih =>
    rw [notes, bind_apply, note_apply, Course.bind]
    dsimp only
    rw [ih]
    simp [Entry.later]

theorem seenBy_notes_bind (ns : List Notice) (f : Unit → Act σ ε β) (limit : Nat) (s : σ) :
    ((notes ns >>= f) s).seenBy view limit =
      (ns.filterMap fun (n : Notice) => view (.note n)) ++ (f () s).seenBy view limit := by
  have hfilter : (ns.map fun (n : Notice) => (⟨0, false, .note n⟩ : Entry)).filter
      (fun (e : Entry) => e.time ≤ limit) = ns.map fun (n : Notice) => ⟨0, false, .note n⟩ :=
    List.filter_eq_self.2 fun e he => by
      obtain ⟨n, _, rfl⟩ := List.mem_map.1 he
      exact decide_eq_true (Nat.zero_le limit)
  rw [bind_apply, Course.seenBy_bind, notes_apply, Course.seenBy, hfilter, Entry.shown,
    List.filterMap_map]
  rfl

theorem seenBy_note_bind {notice : Notice} (hnote : view (.note notice) = none)
    (f : Unit → Act σ ε β) (limit : Nat) (s : σ) :
    ((note notice >>= f) s).seenBy view limit = (f () s).seenBy view limit := by
  rw [bind_apply, Course.seenBy_bind, note_apply]
  simp [Course.seenBy, Ending.value?, hnote]

/-- A call of which nothing is shown leaves what is shown to what comes after it. -/
theorem seenBy_ask_bind {call : Call} {reply : σ → Reply σ α} {s : σ}
    (hcall : view (.call call) = none) (hanswered : view (.answered call) = none)
    (hdeeds : ∀ d ∈ (reply s).deeds, view d = none)
    (f : Except Fault α → Act σ ε β) (limit : Nat) :
    ((ask call reply >>= f) s).seenBy view limit =
      match (reply s).outcome with
      | .returns answer t =>
        if (reply s).delay ≤ limit then (f answer t).seenBy view (limit - (reply s).delay) else []
      | _ => [] := by
  have hnone : (ask call reply s : Course ε _).seen view = [] := by
    rw [seen_ask_of_answered hanswered, hcall, List.filterMap_eq_nil_iff.2 hdeeds]
    rfl
  rw [bind_apply, Course.seenBy_bind, Course.seenBy_eq_nil hnone, ending_ask, length_ask]
  cases (reply s).outcome <;> rfl

theorem seenBy_arrive_bind {step : Step σ α} (hstep : ∀ r ∈ step.remarks, view r.deed = none)
    (f : Unit → Act σ ε β) (limit : Nat) (s : σ) :
    ((arrive step >>= f) s).seenBy view limit =
      if step.wait ≤ limit then (f () step.client).seenBy view (limit - step.wait) else [] := by
  have hnone : (arrive step s : Course ε _).seen view = [] := by
    refine (Entry.shown_eq_nil_iff view).2 fun e he => ?_
    obtain ⟨remark, hremark, rfl⟩ := List.mem_map.1 he
    exact hstep remark hremark
  rw [bind_apply, Course.seenBy_bind, Course.seenBy_eq_nil hnone]
  rfl

end Act

/-! ## What a watch tells by a time -/

/-- The events that the steps of a watch deliver within so many milliseconds; a panic ends them. -/
def Step.told : (left : Nat) → List (Step σ α) → List (WatchEvent α)
  | _, [] => []
  | left, step :: rest =>
    if step.wait ≤ left then
      match step.item with
      | none => told (left - step.wait) rest
      | some (.error _) => []
      | some (.ok event) => event :: told (left - step.wait) rest
    else []

/-- The events of the watch that a call opens, if they come within so many milliseconds. -/
def Reply.heard (limit : Nat) (r : Reply σ (Feed σ α)) : List (WatchEvent α) :=
  match r.outcome with
  | .returns (.ok feed) _ =>
    if r.delay ≤ limit then Step.told (limit - r.delay) feed.steps else []
  | _ => []

/-! ## What is reported -/

/-- The change of phase that a notice reports. -/
def Notice.change? : Notice → Option PhaseChange
  | phaseChanged _ _ before after => some ⟨before, after⟩
  | _ => none

/-- The change of phase that is reported. -/
def Deed.change? : Deed → Option PhaseChange
  | .note notice => notice.change?
  | _ => none

/-- The changes of phase that are reported, in order. -/
def Course.changes (c : Course ε α) : List PhaseChange := c.notices.filterMap Notice.change?

theorem Course.changes_eq_seen (c : Course ε α) : c.changes = c.seen Deed.change? := by
  rw [changes, notices, List.filterMap_filterMap]
  refine List.filterMap_congr fun e _ => ?_
  cases e.deed <;> rfl

/-- The client does not report changes of phase itself, neither when it opens the watch nor while
the watch goes on. -/
structure Reply.Reserved (r : Reply σ (Feed σ α)) : Prop where
  call : ∀ remark ∈ r.remarks, remark.deed.change? = none
  watch : ∀ feed t, r.outcome = .returns (.ok feed) t →
    ∀ step ∈ feed.steps, ∀ remark ∈ step.remarks, remark.deed.change? = none

namespace PodStart

/-- The events that are taken: those up to the first that decides. -/
def taken : List (WatchEvent Pod) → List (WatchEvent Pod)
  | [] => []
  | event :: rest =>
    match verdict event with
    | none => event :: taken rest
    | some _ => [event]

/-- The phases of the pods that events apply. -/
def phases (events : List (WatchEvent Pod)) : List PodPhase :=
  events.filterMap fun (event : WatchEvent Pod) =>
    match event with
    | .applied pod => some pod.phase
    | _ => none

theorem phases_cons (event : WatchEvent Pod) (rest : List (WatchEvent Pod)) :
    phases (event :: rest) = phases [event] ++ phases rest := by
  cases event <;> rfl

/-- The changes that are reported of one event, and those of the others, are those of all. -/
theorem chain_taken_cons (job : String) (last : Option PodPhase) (event : WatchEvent Pod)
    (rest : List (WatchEvent Pod)) :
    PhaseChange.chain last (phases (taken (event :: rest))) =
      (react job last event).notices.filterMap Notice.change? ++
        match (react job last event).next with
        | .inl last' => PhaseChange.chain last' (phases (taken rest))
        | .inr _ => [] := by
  cases event with
  | deleted pod => rfl
  | fault f => rfl
  | applied pod =>
    have hnotices : (react job last (.applied pod)).notices.filterMap Notice.change? =
        (PhaseChange.observe last pod.phase).1.toList := by
      dsimp only [react]
      cases (PhaseChange.observe last pod.phase).1 <;> rfl
    rw [hnotices]
    by_cases hphase : pod.phase = .pending
    · have htaken : taken (.applied pod :: rest) = .applied pod :: taken rest := by
        rw [taken, verdict, if_pos hphase]
      have hnext : (react job last (.applied pod)).next = .inl (some pod.phase) := by
        simp only [react, if_pos hphase, PhaseChange.snd_observe]
      rw [htaken, hnext]
      exact PhaseChange.chain_cons _ _ _
    · have htaken : taken (.applied pod :: rest) = [.applied pod] := by
        rw [taken, verdict, if_neg hphase]
      have hnext : (react job last (.applied pod)).next = .inr pod := if_neg hphase
      rw [htaken, hnext]
      exact PhaseChange.chain_cons _ _ _

end PodStart

/-- The phases of the pods that a pod watch takes within so many milliseconds. -/
def Reply.observed (limit : Nat) (r : Reply σ (Feed σ Pod)) : List PodPhase :=
  PodStart.phases (PodStart.taken (r.heard limit))

/-- **While the watch goes on, exactly the changes among the pods that are taken are reported.** By
induction on the steps: the time that is left goes down with each of them. -/
theorem seenBy_followSteps (job : String) (closes : Bool) (last : Option PodPhase) (limit : Nat)
    {steps : List (Step σ Pod)}
    (h : ∀ step ∈ steps, ∀ remark ∈ step.remarks, remark.deed.change? = none) (s : σ) :
    (Act.followSteps (PodStart.react job) closes last steps s : Course ε _).seenBy Deed.change?
        limit =
      PhaseChange.chain last (PodStart.phases (PodStart.taken (Step.told limit steps))) := by
  induction steps generalizing last limit s with
  | nil =>
    rw [Act.followSteps]
    cases closes <;> rfl
  | cons step rest ih =>
    obtain ⟨hstep, hrest⟩ := List.forall_mem_cons.1 h
    rw [Act.followSteps, Act.seenBy_arrive_bind hstep, Step.told]
    split
    · cases hitem : step.item with
      | none => exact ih last _ hrest _
      | some item =>
        cases item with
        | error message => rfl
        | ok event =>
          dsimp only
          rw [Act.seenBy_notes_bind, PodStart.chain_taken_cons job]
          congr 1
          cases (PodStart.react job last event).next with
          | inl last' => exact ih last' _ hrest _
          | inr pod => rfl
    · rfl

/-! ## What is taken of a watch -/

namespace PodStart

theorem taken_cons_of_waits {event : WatchEvent Pod} (h : Waits event)
    (rest : List (WatchEvent Pod)) : taken (event :: rest) = event :: taken rest := by
  rw [taken, (congrFun verdict_eq_none event).mpr h]

theorem taken_cons_of_not_waits {event : WatchEvent Pod} (h : ¬ Waits event)
    (rest : List (WatchEvent Pod)) : taken (event :: rest) = [event] := by
  rw [taken]
  cases hverdict : verdict event with
  | none => exact absurd ((congrFun verdict_eq_none event).mp hverdict) h
  | some pod => rfl

/-- The first event that decides is the last one taken, if it comes in time. By induction on the
steps: those that are waited past take their time. -/
theorem getLast?_taken_told {steps : List (Step σ Pod)} {event : WatchEvent Pod} {time left : Nat}
    {client : σ} (h : Step.Delivers Waits steps event time client) (htime : time ≤ left) :
    (taken (Step.told left steps)).getLast? = some event := by
  induction steps generalizing time left with
  | nil => exact absurd h Step.not_delivers_nil
  | cons step rest ih =>
    by_cases hsilent : step.Silent Waits
    · obtain ⟨later, hlater, rfl⟩ := (Step.delivers_cons_of_silent hsilent).1 h
      have hleft : later ≤ left - step.wait := by omega
      have hrest := ih hlater hleft
      rw [Step.told, if_pos (by omega)]
      cases hitem : step.item with
      | none => exact hrest
      | some item =>
        obtain ⟨passed, rfl, hwaits⟩ := hsilent item hitem
        dsimp only
        rw [taken_cons_of_waits hwaits, List.getLast?_cons, hrest]
        rfl
    · obtain ⟨hitem, rfl, -⟩ := (Step.delivers_cons_of_not_silent hsilent).1 h
      have hwaits : ¬ Waits event := fun hwaits => hsilent ((Step.silent_iff_of_ok hitem).2 hwaits)
      rw [Step.told, if_pos htime, hitem]
      dsimp only
      rw [taken_cons_of_not_waits hwaits]
      rfl

/-- Events that apply nothing may as well be passed over in silence: no phase is lost. -/
theorem phases_taken_told_hush {idle : WatchEvent Pod → Bool}
    (hidle : ∀ pod, idle (.applied pod) = false) (left : Nat) (steps : List (Step σ Pod)) :
    phases (taken (Step.told left (steps.map (Step.hush idle)))) =
      phases (taken (Step.told left steps)) := by
  induction steps generalizing left with
  | nil => rfl
  | cons step rest ih =>
    rw [List.map_cons, Step.told, Step.told, Step.wait_hush]
    split
    · rcases step.hush_cases idle with hkept | ⟨event, hitem, hevent, hhushed⟩
      · rw [hkept]
        cases hitem : step.item with
        | none => exact ih _
        | some item =>
          cases item with
          | error message => rfl
          | ok event =>
            dsimp only
            by_cases hwaits : Waits event
            · rw [taken_cons_of_waits hwaits, taken_cons_of_waits hwaits, phases_cons, ih,
                ← phases_cons]
            · rw [taken_cons_of_not_waits hwaits, taken_cons_of_not_waits hwaits]
      · rw [hhushed, hitem]
        dsimp only
        have hnothing : phases (taken (event :: Step.told (left - step.wait) rest)) =
            phases (taken (Step.told (left - step.wait) rest)) := by
          cases event with
          | applied pod => rw [hidle pod] at hevent; cases hevent
          | deleted pod => rfl
          | fault f => rfl
        rw [hnothing, ih]
    · rfl

theorem chain_taken_of_pending (events : List (WatchEvent Pod)) :
    PhaseChange.chain (some .pending) (phases (taken events)) = [] ∨
      ∃ phase, phase ≠ .pending ∧
        PhaseChange.chain (some .pending) (phases (taken events)) = [⟨some .pending, phase⟩] := by
  induction events with
  | nil => exact .inl rfl
  | cons event rest ih =>
    by_cases hwaits : Waits event
    · rw [taken_cons_of_waits hwaits]
      cases event with
      | applied pod =>
        have hphase : pod.phase = .pending := hwaits
        have hphases : phases (.applied pod :: taken rest) = .pending :: phases (taken rest) := by
          rw [← hphase]
          rfl
        rw [hphases, PhaseChange.chain_cons, PhaseChange.observe_of_eq rfl]
        exact ih
      | deleted pod => exact ih
      | fault f => exact ih
    · rw [taken_cons_of_not_waits hwaits]
      cases event with
      | applied pod =>
        have hphase : pod.phase ≠ .pending := hwaits
        refine .inr ⟨pod.phase, hphase, ?_⟩
        show PhaseChange.chain _ [pod.phase] = _
        rw [PhaseChange.chain_cons, PhaseChange.observe_of_ne (by simpa using hphase.symm)]
        rfl
      | deleted pod => exact absurd trivial hwaits
      | fault f => exact absurd trivial hwaits

/-- A watch comes to at most two changes, and only the second may leave the first phase. -/
theorem chain_taken_cases (events : List (WatchEvent Pod)) :
    PhaseChange.chain none (phases (taken events)) = [] ∨
      (∃ phase, PhaseChange.chain none (phases (taken events)) = [⟨none, phase⟩]) ∨
      ∃ phase, phase ≠ .pending ∧ PhaseChange.chain none (phases (taken events)) =
        [⟨none, .pending⟩, ⟨some .pending, phase⟩] := by
  induction events with
  | nil => exact .inl rfl
  | cons event rest ih =>
    cases event with
    | deleted pod => exact ih
    | fault f => exact ih
    | applied pod =>
      by_cases hphase : pod.phase = .pending
      · have hphases : phases (taken (.applied pod :: rest)) = .pending :: phases (taken rest) := by
          rw [taken_cons_of_waits (show Waits (.applied pod) from hphase), ← hphase]
          rfl
        rw [hphases, PhaseChange.chain_cons, PhaseChange.observe_of_ne (by simp)]
        rcases chain_taken_of_pending rest with hrest | ⟨phase, hne, hrest⟩
        · rw [hrest]
          exact .inr (.inl ⟨.pending, rfl⟩)
        · rw [hrest]
          exact .inr (.inr ⟨phase, hne, rfl⟩)
      · rw [taken_cons_of_not_waits (show ¬ Waits (.applied pod) from hphase)]
        exact .inr (.inl ⟨pod.phase, rfl⟩)

theorem chain_taken_le (events : List (WatchEvent Pod)) :
    (PhaseChange.chain none (phases (taken events))).length ≤ 2 ∧
      (PhaseChange.chain none (phases (taken events))).countP
        (fun (change : PhaseChange) => change.before = some .pending) ≤ 1 := by
  rcases chain_taken_cases events with hnone | ⟨phase, hone⟩ | ⟨phase, _, htwo⟩
  · rw [hnone]
    exact ⟨Nat.zero_le 2, Nat.zero_le 1⟩
  · rw [hone]
    exact ⟨Nat.le_succ 1, Nat.zero_le 1⟩
  · rw [htwo]
    exact ⟨Nat.le_refl 2, Nat.le_refl 1⟩

end PodStart

/-! ## The pod watch -/

section PodWatch

variable {client : Client σ} {job : JobIdentity} {s : σ}

theorem seenBy_firstStarted (h : (client.watchPods job.ns job.podSelector s).Reserved)
    (limit : Nat) :
    (firstStarted client job s : Course ε _).seenBy Deed.change? limit =
      PhaseChange.chain none ((client.watchPods job.ns job.podSelector s).observed limit) := by
  have hdeeds : ∀ d ∈ (client.watchPods job.ns job.podSelector s).deeds, d.change? = none := by
    intro d hd
    rcases List.mem_append.1 hd with hd | hd
    · obtain ⟨remark, hremark, rfl⟩ := List.mem_map.1 hd
      exact h.call remark hremark
    · obtain ⟨line, _, rfl⟩ := List.mem_map.1 hd
      rfl
  rw [firstStarted, Act.seenBy_note_bind rfl, Act.seenBy_ask_bind rfl rfl hdeeds, Reply.observed,
    Reply.heard]
  rcases houtcome : (client.watchPods job.ns job.podSelector s).outcome with
    ⟨fault | feed, t⟩ | message | _
  · dsimp only
    rw [Act.seenBy_note_bind rfl]
    exact ite_self _
  · dsimp only
    split
    · exact (Course.seenBy_held (fun _ => rfl) (fun _ => rfl) _ _ _).trans
        (seenBy_followSteps job.name feed.closes none _ (h.watch feed t houtcome) t)
    · rfl
  · rfl
  · rfl

/-- **The changes that the pod stage reports are those of the pods that are taken in time.** -/
theorem changes_podStart (h : (client.watchPods job.ns job.podSelector s).Reserved) (limit : Nat) :
    (podStart client job limit s).changes =
      PhaseChange.chain none ((client.watchPods job.ns job.podSelector s).observed limit) := by
  rw [Course.changes_eq_seen, ← seenBy_firstStarted (ε := LifecycleError) h limit]
  refine (Course.Ordered.seen_within ?_ (fun _ => rfl) limit rfl _).trans
    (Course.seenBy_bind_of_forall ?_ limit)
  · refine ((ordered_firstStarted client job).bind fun result => ?_) s
    cases result with
    | none => exact (Act.ordered_note _).bind fun _ => Act.ordered_fail _
    | some pod => exact Act.ordered_pure pod
  · rintro ⟨_ | pod, t⟩ <;> rfl

end PodWatch

theorem Reply.Reserved.hush {r : Reply σ (Feed σ α)} (h : r.Reserved)
    (idle : WatchEvent α → Bool) : (r.hush idle).Reserved where
  call := h.call
  watch := by
    intro feed t hopened step hstep
    obtain ⟨heard, hheard, rfl⟩ := outcome_hush_eq_opened_iff.1 hopened
    obtain ⟨said, hsaid, rfl⟩ := List.mem_map.1 hstep
    have hremarks : (said.hush idle).remarks = said.remarks := by
      rcases said.hush_cases idle with hkept | ⟨_, _, _, hhushed⟩
      · rw [hkept]
      · rw [hhushed]
    rw [hremarks]
    exact h.watch heard t hheard said hsaid

theorem Reply.observed_hush {idle : WatchEvent Pod → Bool}
    (hidle : ∀ pod, idle (.applied pod) = false) (limit : Nat) (r : Reply σ (Feed σ Pod)) :
    (r.hush idle).observed limit = r.observed limit := by
  unfold observed heard hush delay
  rcases r.outcome with ⟨fault | feed, t⟩ | message | _
  · rfl
  · dsimp only
    split
    · exact PodStart.phases_taken_told_hush hidle _ _
    · rfl
  · rfl
  · rfl

/-- **The phase changes that a pod watch reports are those among the pods that it hears of in time,
up to the one that it returns: repetitions are left out, each change starts where the one before it
has ended, and deletions and faults in between make no difference. There are at most two, of which
at most one leaves the first phase. The same holds of any phases that are observed in a row, and the
last one of them is remembered.** -/
theorem podStart_changes {client : Client σ} {job : JobIdentity} {s : σ}
    (h : (client.watchPods job.ns job.podSelector s).Reserved) (limit : Nat) :
    (podStart client job limit s).changes = (PhaseChange.observeAll none
      ((client.watchPods job.ns job.podSelector s).observed limit)).1 ∧
    PhaseChange.Chained none ((client.watchPods job.ns job.podSelector s).observed limit)
      (podStart client job limit s).changes ∧
    (∀ pod t, (podStart client job limit s).ending = .returned (pod, t) →
      (PodStart.taken ((client.watchPods job.ns job.podSelector s).heard limit)).getLast? =
        some (.applied pod)) ∧
    (∀ idle : WatchEvent Pod → Bool, (∀ pod, idle (.applied pod) = false) →
      (podStart (client.hushPods idle) job limit s).changes =
        (podStart client job limit s).changes) ∧
    (podStart client job limit s).changes.length ≤ 2 ∧
    (podStart client job limit s).changes.countP
      (fun (change : PhaseChange) => change.before = some .pending) ≤ 1 ∧
    ∀ last phases, PhaseChange.Chained last phases (PhaseChange.observeAll last phases).1 ∧
      (PhaseChange.observeAll last phases).2 = phases.getLast?.or last := by
  have hchanges := changes_podStart h limit
  obtain ⟨hlength, hcount⟩ :=
    PodStart.chain_taken_le ((client.watchPods job.ns job.podSelector s).heard limit)
  refine ⟨hchanges, ?_, fun pod t hreturns => ?_, fun idle hidle => ?_, hchanges ▸ hlength,
    hchanges ▸ hcount, PhaseChange.chained_observeAll⟩
  · rw [hchanges]
    exact PhaseChange.chained_chain _
  · obtain ⟨feed, u, time, hopened, hdelivers, htime⟩ := podStart_returns_iff.1 hreturns
    rw [Reply.heard, hopened]
    dsimp only
    rw [if_pos (by omega)]
    exact PodStart.getLast?_taken_told hdelivers (by omega)
  · have hhushed : ((client.hushPods idle).watchPods job.ns job.podSelector s).Reserved :=
      h.hush idle
    rw [hchanges, changes_podStart hhushed]
    exact congrArg _ (Reply.observed_hush hidle limit _)

theorem Script.reserved_watch (watch : Scripted (ScriptedWatch α)) :
    (watch.reply ScriptedWatch.feed).Reserved where
  call := List.forall_mem_nil _
  watch := by
    intro feed t hopened step hstep
    have hfeed : feed = watch.answer.feed := by
      simp only [Scripted.reply, Scripted.outcome] at hopened
      split at hopened <;> simp_all
    subst hfeed
    obtain ⟨e, _, rfl⟩ := List.mem_map.1 hstep
    exact List.forall_mem_nil _

theorem podStart_changes_returningPod :
    (podStart Script.returningPod.client ⟨"batch-1", "default"⟩ 60000 ()).changes =
      [⟨none, .pending⟩, ⟨some .pending, .running⟩] ∧
    (podStart Script.returningPod.client ⟨"batch-1", "default"⟩ 59999 ()).changes =
      [⟨none, .pending⟩] :=
  ⟨(podStart_changes (Script.reserved_watch Script.returningPod.pods) 60000).1.trans (by decide),
    (podStart_changes (Script.reserved_watch Script.returningPod.pods) 59999).1.trans (by decide)⟩

/-! ## The watches of a server -/

namespace Watch

/-- The step makes requests of its own and nothing else. -/
def OnlyRequests (step : Step Server α) : Prop :=
  ∀ remark ∈ step.remarks, ∃ request, remark = .request request

theorem onlyRequests_delivery (wait : Nat) (server : Server) (event : WatchEvent Document) :
    OnlyRequests (delivery wait server event) := List.forall_mem_nil _

theorem onlyRequests_lineSteps (w : Watch) (server : Server) (version : String)
    (wait failures : Nat) (lines : List (Timed String)) :
    ∀ step ∈ (w.lineSteps server version wait failures lines).steps, OnlyRequests step := by
  induction lines generalizing version wait failures with
  | nil => exact List.forall_mem_nil _
  | cons line rest ih =>
    have hgivenUp (reason : String) :
        ∀ step ∈ [delivery (wait + line.wait) server (w.fault reason)], OnlyRequests step :=
      List.forall_mem_singleton.2 (onlyRequests_delivery _ _ _)
    have hafter (event : WatchEvent Document) (version : String) (wait' failures : Nat) :
        ∀ step ∈ ((w.lineSteps server version wait' failures rest).after
          (delivery (wait + line.wait) server event)).steps, OnlyRequests step :=
      List.forall_mem_cons.2 ⟨onlyRequests_delivery _ _ _, ih _ _ _⟩
    unfold lineSteps
    dsimp only
    split
    · exact ih _ _ _
    · exact hgivenUp _
    · split
      · exact hgivenUp _
      · exact hafter _ _ _ _
    · split
      · exact hgivenUp _
      · exact hafter _ _ _ _
    · exact ih _ _ _
    · split
      · exact hgivenUp _
      · exact hafter _ _ _ _

/-- By induction on the answers: each of them is asked for, and what comes of it is delivered. -/
theorem onlyRequests_steps (w : Watch) (stance : Stance) (wait failures : Nat)
    (answers : List ServerAnswer) :
    ∀ step ∈ w.steps stance wait failures answers, OnlyRequests step := by
  induction answers generalizing stance wait failures with
  | nil =>
    refine List.forall_mem_singleton.2 ?_
    exact List.forall_mem_singleton.2 ⟨_, rfl⟩
  | cons answer rest ih =>
    have hasked (server : Server) : OnlyRequests
        (⟨wait, [.request (w.request stance)], none, server⟩ : Step Server Document) :=
      List.forall_mem_singleton.2 ⟨_, rfl⟩
    have hfailed (server : Server) (wait' failures' pause' : Nat) (reason : String)
        (next : Stance) : ∀ step ∈ delivery wait' server (w.fault reason)
          :: steps w next pause' failures' rest, OnlyRequests step :=
      List.forall_mem_cons.2 ⟨onlyRequests_delivery _ _ _, ih _ _ _⟩
    have hitems (server : Server) (items : List Document) (wait' wait'' : Nat) (next : Stance) :
        ∀ step ∈ deliveries wait' server items ++ steps w next wait'' failures rest,
          OnlyRequests step := by
      refine List.forall_mem_append.2 ⟨List.forall_mem_map.2 fun d _ => ?_, ih _ _ _⟩
      exact onlyRequests_delivery _ _ _
    unfold steps
    dsimp only
    split
    · split
      · exact List.forall_mem_singleton.2 (hasked _)
      · exact List.forall_mem_cons.2 ⟨hasked _, hfailed _ _ _ _ _ _⟩
      · split
        · exact List.forall_mem_cons.2 ⟨hasked _, hfailed _ _ _ _ _ _⟩
        · exact List.forall_mem_cons.2 ⟨hasked _, hitems _ _ _ _ _⟩
        · exact List.forall_mem_cons.2 ⟨hasked _, hitems _ _ _ _ _⟩
    · split
      · exact List.forall_mem_cons.2 ⟨hasked _, hfailed _ _ _ _ _ _⟩
      · rename_i body
        rw [List.cons_append]
        refine List.forall_mem_cons.2 ⟨hasked _, List.forall_mem_append.2
          ⟨onlyRequests_lineSteps _ _ _ _ _ _, ?_⟩⟩
        split
        · exact ih _ _ _
        · split
          · exact ih _ _ _
          · exact List.forall_mem_nil _
          · exact hfailed _ _ _ _ _ _

end Watch

theorem Server.reserved_watchPods (ns selector : String) (s : Server) :
    (Server.client.watchPods ns selector s).Reserved where
  call := List.forall_mem_singleton.2 rfl
  watch := by
    intro feed t hopened step hstep remark hremark
    cases hopened
    obtain ⟨told, htold, rfl⟩ := List.mem_map.1 hstep
    obtain ⟨request, rfl⟩ := Watch.onlyRequests_steps _ _ _ _ _ told htold remark hremark
    rfl

end BatchRun
