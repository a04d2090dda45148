import BatchRun.Proofs.Run.Order
import BatchRun.Run.Tasks
import Mathlib.Logic.Relation

/-!
# Runs on their way

A run comes to every point of its course. Dropped there, it leaves at most one worker behind. The
handle of the worker tells that one to stop, so it does nothing more of its own, and what it holds
is released when it is dropped in its turn. Up to the drop the run was like any other, and could
have gone on.

* `Guarded`: each worker is told to stop if nobody waits for it any more;
* `Run.Underway`: a run that has come to some point; **`Underway.of_step`**;
* `Run.Dropped`: a run that was dropped there; **`Underway.drop`**, **`Dropped.of_step`**;
* `Run.Timely`, `Underway.done_turns`, `Underway.exists_now`: a run comes to every point of its
  course and is somewhere at every time; `Underway.exists_done`: it can always go on to the end;
* **`exists_reaches_drop_of_plain`**: without the guard, a worker would go on after a drop.
-/

namespace BatchRun

/-! ## Guarded workers -/

/-- Each worker that is set to work is to be aborted with its handle, and comes back with nothing
open; nobody else opens anything. A worker that is at work is given by what it holds. -/
inductive Guarded : Option (List Connection) → List Entry → Option (List Connection) → Prop
  | nil {w : Option (List Connection)} : Guarded w [] w
  | own {e : Entry} {es : List Entry} {w : Option (List Connection)} (howner : e.onWorker = false)
      (hplain : e.deed.isPlain = true) (hhold : ∀ held, e.deed.hold held = held)
      (hrest : Guarded none es w) : Guarded none (e :: es) w
  | spawn {e : Entry} {es : List Entry} {w : Option (List Connection)} (howner : e.onWorker = false)
      (hdeed : e.deed = .spawned .abortOnDrop) (hrest : Guarded (some []) es w) :
      Guarded none (e :: es) w
  | work {e : Entry} {es : List Entry} {held : List Connection} {w : Option (List Connection)}
      (howner : e.onWorker = true) (hrest : Guarded (some (e.deed.hold held)) es w) :
      Guarded (some held) (e :: es) w
  | join {e : Entry} {es : List Entry} {w : Option (List Connection)} (howner : e.onWorker = false)
      (hdeed : e.deed = .joined) (hrest : Guarded none es w) : Guarded (some []) (e :: es) w

namespace Guarded

variable {v w x : Option (List Connection)} {es fs : List Entry} {held : List Connection}

theorem append (h : Guarded v es w) (h' : Guarded w fs x) : Guarded v (es ++ fs) x := by
  induction h with
  | nil => exact h'
  | own howner hplain hhold _ ih => exact .own howner hplain hhold (ih h')
  | spawn howner hdeed _ ih => exact .spawn howner hdeed (ih h')
  | work howner _ ih => exact .work howner (ih h')
  | join howner hdeed _ ih => exact .join howner hdeed (ih h')

theorem later (h : Guarded v es w) (n : Nat) : Guarded v (es.map (Entry.later n)) w := by
  induction h with
  | nil => exact .nil
  | own howner hplain hhold _ ih => exact .own howner hplain hhold ih
  | spawn howner hdeed _ ih => exact .spawn howner hdeed ih
  | work howner _ ih => exact .work howner ih
  | join howner hdeed _ ih => exact .join howner hdeed ih

theorem byWorker (es : List Entry) (held : List Connection) :
    Guarded (some held) (es.map Entry.byWorker)
      (some (es.foldl (fun (held : List Connection) (e : Entry) => e.deed.hold held) held)) := by
  induction es generalizing held with
  | nil => exact .nil
  | cons e es ih => exact .work rfl (ih _)

/-- What is open at any moment is held by the worker. -/
theorem foldl_hold (h : Guarded v es w) :
    es.foldl (fun (held : List Connection) (e : Entry) => e.deed.hold held) (v.getD []) =
      w.getD [] := by
  induction h with
  | nil => rfl
  | own _ _ hhold _ ih => rwa [List.foldl_cons, hhold]
  | spawn _ hdeed _ ih => rwa [List.foldl_cons, hdeed]
  | work _ _ ih => exact ih
  | join _ hdeed _ ih => rwa [List.foldl_cons, hdeed]

theorem stillOpen_eq (h : Guarded none es w) : Entry.stillOpen es = w.getD [] := h.foldl_hold

/-- After its work, the worker can only come back. -/
theorem joined_of_append {work left : List Entry} {e : Entry}
    (hwork : ∀ e ∈ work, e.onWorker = true) (howner : e.onWorker = false)
    (h : Guarded (some held) (work ++ e :: left) w) :
    e.deed = .joined := by
  induction work generalizing held with
  | nil =>
    cases h with
    | work hworker => simp [howner] at hworker
    | join _ hdeed => exact hdeed
  | cons e' work ih =>
    obtain ⟨hfirst, hothers⟩ := List.forall_mem_cons.1 hwork
    cases h with
    | work _ hrest => exact ih hothers hrest
    | join hcaller => simp [hfirst] at hcaller

end Guarded

namespace Run

/-- What a run may come to, step after step. -/
abbrev Reaches : Run → Run → Prop := Relation.ReflTransGen Step

/-! ## A run under way -/

/-- The course is being taken: what has been done and what is left make it up. Either the caller is
alone, or it waits for a worker, which does its part first. -/
inductive Underway (es : List Entry) : Run → Prop
  | alone {now : Nat} {done left : List Entry} {w : Option (List Connection)}
      (hcourse : done ++ left = es) (hdone : Guarded none done none) (hleft : Guarded none left w) :
      Underway es ⟨now, done, some ⟨left, []⟩, none⟩
  | attended {now : Nat} {done work left : List Entry} {held : List Connection}
      {w : Option (List Connection)} (hcourse : done ++ (work ++ left) = es)
      (hdone : Guarded none done (some held)) (hleft : Guarded (some held) (work ++ left) w)
      (hwork : ∀ e ∈ work, e.onWorker = true) (hback : ∀ e ∈ left.head?, e.onWorker = false) :
      Underway es ⟨now, done, some ⟨left, []⟩, some ⟨⟨work, held⟩, .abortOnDrop, false⟩⟩

variable {es kept : List Entry} {r r' : Run}

theorem underway_start {w : Option (List Connection)} (h : Guarded none es w) :
    Underway es (start es) := .alone rfl .nil h

/-- **A run under way stays a part of its course.** -/
theorem Underway.of_step (h : Underway es r) (hstep : Step r r') : Underway es r' := by
  cases hstep with
  | pass =>
    cases h with
    | alone hcourse hdone hleft => exact .alone hcourse hdone hleft
    | attended hcourse hdone hleft hwork hback =>
      exact .attended hcourse hdone hleft hwork hback
  | own hdeed =>
    cases h with
    | alone hcourse hdone hleft =>
      cases hleft with
      | own howner hplain hhold hrest =>
        rw [hhold]
        exact .alone (by rwa [List.append_assoc])
          (hdone.append (.own howner hplain hhold .nil)) hrest
      | spawn _ hspawn => simp [hspawn, Deed.isPlain] at hdeed
    | attended _ _ hleft hwork hback =>
      have hjoined := hleft.joined_of_append hwork (hback _ rfl)
      simp [hjoined, Deed.isPlain] at hdeed
  | @spawn _ _ left _ _ _ hdeed =>
    cases h with
    | alone hcourse hdone hleft =>
      cases hleft with
      | own _ hplain => simp [hdeed, Deed.isPlain] at hplain
      | spawn howner hspawn hrest =>
        rw [hspawn] at hdeed
        cases hdeed
        refine .attended ?_ (hdone.append (.spawn howner hspawn .nil))
          (by rwa [List.takeWhile_append_dropWhile]) (fun e he => List.mem_takeWhile_imp he) ?_
        · rwa [List.takeWhile_append_dropWhile, List.append_assoc]
        · intro e he
          have hhead := List.head?_dropWhile_not Entry.onWorker left
          rw [Option.mem_def.1 he] at hhead
          simpa using hhead
  | work =>
    cases h with
    | attended hcourse hdone hleft hwork hback =>
      obtain ⟨hfirst, hothers⟩ := List.forall_mem_cons.1 hwork
      cases hleft with
      | work howner hrest =>
        exact .attended (by rwa [List.append_assoc]) (hdone.append (.work howner .nil)) hrest
          hothers hback
      | join hcaller => simp [hfirst] at hcaller
  | join hdeed =>
    cases h with
    | attended hcourse hdone hleft _ hback =>
      cases hleft with
      | work hworker => simp [hback _ rfl] at hworker
      | join howner hjoined hrest =>
        exact .alone (by rwa [List.append_assoc]) (hdone.append (.join howner hjoined .nil)) hrest
  | teardown => cases h

theorem Underway.of_reaches (h : Underway es r) (hreaches : Reaches r r') : Underway es r' := by
  induction hreaches with
  | refl => exact h
  | tail _ hstep ih => exact ih.of_step hstep

theorem Underway.done_append_pending (h : Underway es r) : r.done ++ r.pending = es := by
  cases h with
  | alone hcourse => exact hcourse
  | attended hcourse => exact hcourse

theorem Underway.stillOpen_of_alone (h : Underway es r) (halone : r.worker = none) :
    Entry.stillOpen r.done = [] := by
  cases h with
  | alone _ hdone => exact hdone.stillOpen_eq
  | attended => cases halone

/-! ## A dropped run -/

/-- The caller is gone since some time, after what was done until then. Its worker waits to be
dropped, or has been dropped with all that was still open. -/
inductive Dropped (kept : List Entry) (since : Nat) : Run → Prop
  | aborted {now : Nat} {left : List Entry} {handle : Handle} (hnow : since ≤ now) :
      Dropped kept since ⟨now, kept, none, some ⟨⟨left, Entry.stillOpen kept⟩, handle, true⟩⟩
  | gone {now time : Nat} (htime : since ≤ time) :
      Dropped kept since ⟨now, kept ++ Entry.releases time (Entry.stillOpen kept), none, none⟩

variable {since : Nat}

/-- **The guard of the worker sees to it that nothing goes on when the caller is dropped.** -/
theorem Underway.drop (h : Underway es r) : Dropped r.done r.now r.drop := by
  cases h with
  | @alone now done left _ _ hdone _ =>
    have hgone := @Dropped.gone done now now now (Nat.le_refl _)
    rwa [hdone.stillOpen_eq] at hgone
  | @attended now done work left held _ _ hdone _ _ _ =>
    have haborted := @Dropped.aborted done now now work .abortOnDrop (Nat.le_refl _)
    rw [hdone.stillOpen_eq] at haborted
    simpa [Run.drop, Worker.unhandled, Entry.releases] using haborted

/-- **After a drop nothing is done any more, except that what was open is released.** -/
theorem Dropped.of_step (h : Dropped kept since r) (hstep : Step r r') : Dropped kept since r' := by
  cases hstep with
  | pass hnow =>
    cases h with
    | aborted hsince => exact .aborted (Nat.le_trans hsince hnow)
    | gone htime => exact .gone htime
  | own => cases h
  | spawn => cases h
  | work => cases h
  | join => cases h
  | teardown =>
    cases h with
    | aborted hnow => exact .gone hnow

theorem Dropped.of_reaches (h : Dropped kept since r) (hreaches : Reaches r r') :
    Dropped kept since r' := by
  induction hreaches with
  | refl => exact h
  | tail _ hstep ih => exact ih.of_step hstep

theorem Dropped.exists_done_eq (h : Dropped kept since r) : ∃ time held, since ≤ time ∧
    r.done = kept ++ Entry.releases time held ∧
      (held = [] ∨ held = Entry.stillOpen kept) ∧
      (r.worker = none → held = Entry.stillOpen kept) := by
  cases h with
  | aborted hnow => exact ⟨_, [], hnow, (List.append_nil _).symm, .inl rfl, nofun⟩
  | gone htime => exact ⟨_, Entry.stillOpen kept, htime, rfl, .inr rfl, fun _ => rfl⟩

theorem Dropped.exists_teardown (h : Dropped kept since r) :
    ∃ r', Reaches r r' ∧ r'.worker = none := by
  cases h with
  | aborted => exact ⟨_, .single .teardown, rfl⟩
  | gone => exact ⟨_, .refl, rfl⟩

/-! ## Every point of a run -/

/-- What has been done is past, and what is left comes in the order of time and is not overdue. -/
structure Timely (r : Run) : Prop where
  past : ∀ e ∈ r.done, e.time ≤ r.now
  due : ∀ e ∈ r.pending, r.now ≤ e.time
  sorted : Entry.Sorted r.pending

theorem timely_start (h : Entry.Sorted es) : Timely (start es) where
  past := List.forall_mem_nil _
  due := fun _ _ => Nat.zero_le _
  sorted := h

theorem Timely.of_sublist (h : Timely r) (hnow : r'.now = r.now)
    (hpast : ∀ e ∈ r'.done, e.time ≤ r'.now) (hleft : r'.pending.Sublist r.pending) :
    Timely r' where
  past := hpast
  due := fun e he => hnow ▸ h.due e (hleft.subset he)
  sorted := h.sorted.sublist hleft

theorem Timely.of_step (h : Timely r) (hstep : Step r r') : Timely r' := by
  have hpast {done more : List Entry} {now : Nat} (hdone : ∀ e ∈ done, e.time ≤ now)
      (hmore : ∀ e ∈ more, e.time ≤ now) : ∀ e ∈ done ++ more, e.time ≤ now :=
    List.forall_mem_append.2 ⟨hdone, hmore⟩
  cases hstep with
  | pass hnow hdue => exact ⟨fun e he => Nat.le_trans (h.past e he) hnow, hdue, h.sorted⟩
  | own _ hdue =>
    exact h.of_sublist rfl (hpast h.past (List.forall_mem_singleton.2 hdue))
      ((List.Sublist.refl _).append (List.sublist_cons_self _ _))
  | @spawn _ _ left _ _ _ _ hdue =>
    refine h.of_sublist rfl (hpast h.past (List.forall_mem_singleton.2 hdue)) ?_
    have hsame : left.takeWhile Entry.onWorker ++ left.dropWhile Entry.onWorker = left :=
      List.takeWhile_append_dropWhile
    simp only [pending, workLeft, callerLeft, hsame]
    exact List.sublist_cons_self _ _
  | work hdue =>
    exact h.of_sublist rfl (hpast h.past (List.forall_mem_singleton.2 hdue))
      (List.sublist_cons_self _ _)
  | join _ hdue =>
    exact h.of_sublist rfl (hpast h.past (List.forall_mem_singleton.2 hdue))
      (List.sublist_cons_self _ _)
  | teardown =>
    exact h.of_sublist rfl (hpast h.past fun e he => Nat.le_of_eq (Course.time_releases he))
      (List.Sublist.refl _)

theorem Timely.of_reaches (h : Timely r) (hreaches : Reaches r r') : Timely r' := by
  induction hreaches with
  | refl => exact h
  | tail _ hstep ih => exact ih.of_step hstep

theorem Timely.reaches_due (h : Timely r) {e : Entry} {rest : List Entry}
    (hnext : r.pending = e :: rest) : Reaches r { r with now := max r.now e.time } := by
  have hsorted := h.sorted
  have hdue := h.due
  rw [hnext] at hsorted hdue
  refine .single (.pass (Nat.le_max_left _ _) fun e' he' => ?_)
  rw [hnext] at he'
  refine Nat.max_le.2 ⟨hdue e' he', ?_⟩
  rcases List.mem_cons.1 he' with rfl | he'
  · exact Nat.le_refl _
  · exact (List.pairwise_cons.1 hsorted).1 e' he'

theorem reaches_callerTurn {now : Nat} {done left : List Entry} {e : Entry}
    {held : List Connection} {worker : Option Worker} (hdue : e.time ≤ now)
    (hidle : ∀ w ∈ worker, w.task.left = [] ∧ w.aborted = false) :
    Reaches ⟨now, done, some ⟨e :: left, held⟩, worker⟩
      (callerTurn now done e left held worker) := by
  unfold callerTurn
  split
  · rename_i hplain
    exact .single (.own hplain hdue)
  · split
    · rename_i hdeed
      exact .single (.spawn hdeed hdue)
    · rename_i w hdeed
      obtain ⟨⟨left', held'⟩, handle, aborted⟩ := w
      obtain ⟨hleft, haborted⟩ := hidle _ rfl
      dsimp only at hleft haborted
      rw [hleft, haborted]
      exact .single (.join hdeed hdue)
    · exact .refl

/-- What happens if nobody interferes is one of the things that may happen. -/
theorem Timely.reaches_turn (h : Timely r) : Reaches r r.turn := by
  obtain ⟨now, done, caller, worker⟩ := r
  rcases worker with _ | ⟨⟨_ | ⟨e, left⟩, held⟩, handle, _ | _⟩
  · rcases caller with _ | ⟨_ | ⟨e, left⟩, held⟩
    · exact .refl
    · exact .refl
    · exact (h.reaches_due rfl).trans (reaches_callerTurn (Nat.le_max_right _ _) nofun)
  · rcases caller with _ | ⟨_ | ⟨e, left⟩, held'⟩
    · exact .refl
    · exact .refl
    · refine (h.reaches_due rfl).trans (reaches_callerTurn (Nat.le_max_right _ _) ?_)
      rintro w ⟨⟩
      exact ⟨rfl, rfl⟩
  · exact .single .teardown
  · exact (h.reaches_due rfl).tail (.work (Nat.le_max_right _ _))
  · exact .single .teardown

theorem turns_succ (n : Nat) (r : Run) : turns (n + 1) r = (turns n r).turn := by
  induction n generalizing r with
  | zero => rfl
  | succ n ih => exact ih r.turn

theorem Timely.reaches_turns (h : Timely r) (n : Nat) : Reaches r (turns n r) := by
  induction n with
  | zero => exact .refl
  | succ n ih =>
    rw [turns_succ]
    exact ih.trans (h.of_reaches ih).reaches_turn

theorem Underway.turn_spec (h : Underway es r) : r.turn.done = r.done ++ r.pending.take 1 ∧
    r.turn.now = r.pending.head?.elim r.now fun (e : Entry) => max r.now e.time := by
  cases h with
  | @alone _ _ left _ _ _ hleft =>
    cases hleft with
    | nil => exact ⟨(List.append_nil _).symm, rfl⟩
    | own _ hplain => simp [turn, callerTurn, pending, workLeft, callerLeft, hplain]
    | spawn _ hdeed =>
      simp [turn, callerTurn, pending, workLeft, callerLeft, hdeed, Deed.isPlain]
  | @attended _ _ work left _ _ _ _ hleft _ hback =>
    cases work with
    | cons e work => exact ⟨rfl, rfl⟩
    | nil =>
      cases hleft with
      | nil => exact ⟨(List.append_nil _).symm, rfl⟩
      | work hworker => simp [hback _ rfl] at hworker
      | join _ hdeed =>
        simp [turn, callerTurn, pending, workLeft, callerLeft, hdeed, Deed.isPlain]

theorem Underway.pending_turn (h : Underway es r) (htimely : Timely r) :
    r.turn.pending = r.pending.drop 1 := by
  have hcourse := (h.of_reaches htimely.reaches_turn).done_append_pending.trans
    h.done_append_pending.symm
  rw [h.turn_spec.1, List.append_assoc] at hcourse
  refine List.append_cancel_left ((List.append_cancel_left hcourse).trans ?_)
  exact (List.take_append_drop 1 r.pending).symm

/-- **So many turns do so much of the course.** -/
theorem Underway.done_turns (h : Underway es r) (htimely : Timely r) (n : Nat) :
    (turns n r).done = r.done ++ r.pending.take n := by
  induction n generalizing r with
  | zero => exact (List.append_nil _).symm
  | succ n ih =>
    rw [turns, ih (h.of_reaches htimely.reaches_turn) (htimely.of_reaches htimely.reaches_turn),
      h.turn_spec.1, h.pending_turn htimely, List.append_assoc, Nat.add_comm, List.take_add]

/-- **A run can go on from every point to the end of its course.** -/
theorem Underway.exists_done (h : Underway es r) (htimely : Timely r) :
    ∃ r', Reaches r r' ∧ r'.done = es := by
  refine ⟨_, htimely.reaches_turns r.pending.length, ?_⟩
  rw [h.done_turns htimely, List.take_length, h.done_append_pending]

/-- **A run is somewhere at every time.** -/
theorem Underway.exists_now (h : Underway es r) (htimely : Timely r) {time : Nat}
    (hnow : r.now ≤ time) : ∃ r', Reaches r r' ∧ r'.now = time := by
  induction hpending : r.pending generalizing r with
  | nil => exact ⟨_, .single (.pass hnow (by rw [hpending]; exact List.forall_mem_nil _)), rfl⟩
  | cons e rest ih =>
    have hsorted := htimely.sorted
    rw [hpending] at hsorted
    by_cases hdue : time ≤ e.time
    · refine ⟨_, .single (.pass hnow ?_), rfl⟩
      rw [hpending]
      exact List.forall_mem_cons.2
        ⟨hdue, fun e' he' => Nat.le_trans hdue ((List.pairwise_cons.1 hsorted).1 e' he')⟩
    · have hturn : r.turn.now ≤ time := by
        rw [h.turn_spec.2, hpending]
        exact Nat.max_le.2 ⟨hnow, Nat.le_of_not_le hdue⟩
      have hrest : r.turn.pending = rest := by
        rw [h.pending_turn htimely, hpending]
        rfl
      obtain ⟨r', hreaches, htime⟩ := ih (h.of_reaches htimely.reaches_turn)
        (htimely.of_reaches htimely.reaches_turn) hturn hrest
      exact ⟨r', htimely.reaches_turn.trans hreaches, htime⟩

/-! ## Workers without a guard -/

theorem reaches_of_left {now : Nat} {done left : List Entry} {held : List Connection}
    {handle : Handle} (h : Timely ⟨now, done, none, some ⟨⟨left, held⟩, handle, false⟩⟩) :
    ∃ r', Reaches ⟨now, done, none, some ⟨⟨left, held⟩, handle, false⟩⟩ r' ∧
      r'.done = done ++ left := by
  induction left generalizing now done held with
  | nil => exact ⟨_, .refl, (List.append_nil _).symm⟩
  | cons e left ih =>
    obtain ⟨r', hreaches, hdone⟩ := ih (h.of_reaches h.reaches_turn)
    exact ⟨r', h.reaches_turn.trans hreaches, by rw [hdone, List.append_assoc]; rfl⟩

/-- **Under a plain handle, dropping the caller stops nothing.** -/
theorem exists_reaches_drop_of_plain {now : Nat} {done left : List Entry} {caller : Task}
    {held : List Connection}
    (h : Timely ⟨now, done, some caller, some ⟨⟨left, held⟩, .plain, false⟩⟩) :
    ∃ r', Reaches (drop ⟨now, done, some caller, some ⟨⟨left, held⟩, .plain, false⟩⟩) r' ∧
      r'.done = done ++ Entry.releases now caller.held ++ left := by
  refine reaches_of_left (h.of_sublist rfl ?_ ((List.Sublist.refl _).append (List.nil_sublist _)))
  exact List.forall_mem_append.2 ⟨h.past, fun e he => Nat.le_of_eq (Course.time_releases he)⟩

end Run

end BatchRun
