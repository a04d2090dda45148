import BatchRun.Run.Course

/-!
# How courses compose

* `Ending.bind`, `Ending.Orderly`: an ending is orderly if it returns or fails;
* `Course.Gives`: a course returns a value after a time, **`Course.gives_bind_iff`**;
* `Course.seen`: what a view shows of the deeds of a course, **`Course.seen_bind`**;
* `Deed.Sparse`: views that show at most calls, identities and workers;
* `Course.gives_within_iff`, `within_ne_stuck`: a deadline;
* `Course.entries_spawn`, `ending_spawn`, `length_spawn`, `seen_spawn`: a worker;
* `Course.Opens`: the shown deeds are done at once, so that no deadline cuts them off
  (`Course.Opens.seen_within`).
-/

namespace BatchRun

variable {ε α β γ : Type}

/-! ## Endings -/

namespace Ending

/-- How two activities in a row end. -/
def bind (e : Ending ε α) (f : α → Ending ε β) : Ending ε β :=
  match e with
  | returned value => f value
  | failed error => failed error
  | panicked message => panicked message
  | stuck => stuck

/-- The value that was returned. -/
def value? : Ending ε α → Option α
  | returned value => some value
  | _ => none

/-- The activity returns or fails: it neither panics nor gets stuck. -/
def Orderly : Ending ε α → Prop
  | returned _ | failed _ => True
  | panicked _ | stuck => False

theorem bind_eq_returned_iff {e : Ending ε α} {f : α → Ending ε β} {b : β} :
    e.bind f = .returned b ↔ ∃ a, e = .returned a ∧ f a = .returned b := by
  cases e <;> simp [bind]

theorem Orderly.cases {e : Ending ε α} (h : e.Orderly) :
    (∃ a, e = .returned a) ∨ ∃ error, e = .failed error := by
  cases e with
  | returned a => exact .inl ⟨a, rfl⟩
  | failed error => exact .inr ⟨error, rfl⟩
  | panicked message => exact h.elim
  | stuck => exact h.elim

theorem Orderly.bind {e : Ending ε α} {f : α → Ending ε β} (he : e.Orderly)
    (hf : ∀ a, e = .returned a → (f a).Orderly) : (e.bind f).Orderly := by
  rcases he.cases with ⟨a, rfl⟩ | ⟨error, rfl⟩
  · exact hf a rfl
  · trivial

end Ending

/-! ## Entries -/

namespace Entry

variable (view : Deed → Option γ)

/-- What a view shows of the deeds of entries, in order. -/
def shown (es : List Entry) : List γ := es.filterMap fun (e : Entry) => view e.deed

@[simp] theorem shown_nil : shown view [] = [] := rfl

@[simp] theorem shown_cons (e : Entry) (es : List Entry) :
    shown view (e :: es) = (view e.deed).toList ++ shown view es := by
  rw [shown, List.filterMap_cons]
  cases view e.deed <;> rfl

@[simp] theorem shown_append (es fs : List Entry) :
    shown view (es ++ fs) = shown view es ++ shown view fs := List.filterMap_append

@[simp] theorem shown_later (n : Nat) (es : List Entry) :
    shown view (es.map (later n)) = shown view es := by
  rw [shown, List.filterMap_map]
  rfl

theorem shown_byWorker (es : List Entry) : shown view (es.map byWorker) = shown view es := by
  rw [shown, List.filterMap_map]
  rfl

theorem shown_eq_nil_iff {es : List Entry} : shown view es = [] ↔ ∀ e ∈ es, view e.deed = none :=
  List.filterMap_eq_nil_iff

theorem shown_releases {view : Deed → Option γ} (hreleased : ∀ x, view (.released x) = none)
    (time : Nat) (held : List Connection) : shown view (releases time held) = [] := by
  rw [shown_eq_nil_iff]
  intro e he
  obtain ⟨x, _, rfl⟩ := List.mem_map.1 he
  exact hreleased x

end Entry

namespace Course

/-! ## Values and times -/

/-- The course returns a value after so many milliseconds. -/
def Gives (c : Course ε α) (a : α) (n : Nat) : Prop := c.ending = .returned a ∧ c.length = n

theorem ending_bind (c : Course ε α) (f : α → Course ε β) :
    (c.bind f).ending = c.ending.bind fun (a : α) => (f a).ending := by
  unfold bind
  cases c.ending <;> rfl

theorem entries_bind (c : Course ε α) (f : α → Course ε β) :
    (c.bind f).entries = c.entries ++
      c.ending.value?.elim [] fun (a : α) => (f a).entries.map (Entry.later c.length) := by
  unfold bind
  cases c.ending <;> simp [Ending.value?]

theorem length_bind (c : Course ε α) (f : α → Course ε β) :
    (c.bind f).length = c.length + c.ending.value?.elim 0 fun (a : α) => (f a).length := by
  unfold bind
  cases c.ending <;> rfl

theorem exists_gives_iff {c : Course ε α} {a : α} :
    (∃ n, c.Gives a n) ↔ c.ending = .returned a := by
  constructor
  · rintro ⟨n, h, _⟩
    exact h
  · intro h
    exact ⟨c.length, h, rfl⟩

/-- **Two activities in a row give what the second gives, and their times add up.** -/
theorem gives_bind_iff {c : Course ε α} {f : α → Course ε β} {b : β} {n : Nat} :
    (c.bind f).Gives b n ↔ ∃ a m k, c.Gives a m ∧ (f a).Gives b k ∧ n = m + k := by
  unfold Gives bind
  cases c.ending with
  | returned a =>
    constructor
    · rintro ⟨hb, hn⟩
      exact ⟨a, c.length, (f a).length, ⟨rfl, rfl⟩, ⟨hb, rfl⟩, hn.symm⟩
    · rintro ⟨a', m, k, ⟨ha, rfl⟩, ⟨hb, rfl⟩, rfl⟩
      cases ha
      exact ⟨hb, rfl⟩
  | failed error => simp
  | panicked message => simp
  | stuck => simp

theorem pure_bind (a : α) (f : α → Course ε β) : (pure a).bind f = f a := by
  have hlater : (fun (e : Entry) => Entry.later 0 e) = id := by
    funext e
    rw [Entry.later, Nat.zero_add]
    rfl
  unfold bind pure
  dsimp only
  rw [show Entry.later 0 = id from hlater, List.map_id, Nat.zero_add, List.nil_append]

theorem bind_assoc (c : Course ε α) (f : α → Course ε β) (g : β → Course ε γ) :
    (c.bind f).bind g = c.bind fun (a : α) => (f a).bind g := by
  unfold bind
  cases c.ending with
  | returned a =>
    have hlater (m n : Nat) (es : List Entry) : es.map (Entry.later (m + n)) =
        (es.map (Entry.later n)).map (Entry.later m) := by
      rw [List.map_map]
      refine List.map_congr_left fun e _ => ?_
      simp [Entry.later, Nat.add_assoc]
    dsimp only
    cases (f a).ending <;> simp [hlater, Nat.add_assoc]
  | _ => rfl

theorem map_eq (f : α → β) (c : Course ε α) :
    (f <$> c) = c.bind fun (a : α) => ⟨[], .returned (f a), 0⟩ := rfl

/-! ## Views -/

end Course

/-- A view that shows neither notices nor output nor what is requested, answered or held. -/
structure Deed.Sparse (view : Deed → Option γ) : Prop where
  answered : ∀ call, view (.answered call) = none
  note : ∀ notice, view (.note notice) = none
  request : ∀ request, view (.request request) = none
  line : ∀ text, view (.line text) = none
  opened : ∀ connection, view (.opened connection) = none
  released : ∀ connection, view (.released connection) = none

namespace Course

/-- What a view shows of the deeds of a course, in order. -/
def seen (view : Deed → Option γ) (c : Course ε α) : List γ := Entry.shown view c.entries

variable {view : Deed → Option γ}

/-- **The deeds of two activities in a row, if the first returns.** -/
theorem seen_bind (view : Deed → Option γ) (c : Course ε α) (f : α → Course ε β) :
    (c.bind f).seen view =
      c.seen view ++ c.ending.value?.elim [] fun (a : α) => (f a).seen view := by
  unfold bind seen
  cases c.ending <;> simp [Ending.value?]

theorem seen_bind_of_returned {c : Course ε α} {a : α} (h : c.ending = .returned a)
    (f : α → Course ε β) : (c.bind f).seen view = c.seen view ++ (f a).seen view := by
  rw [seen_bind, h]
  rfl

theorem seen_bind_of_forall {c : Course ε α} {f : α → Course ε β}
    (h : ∀ a, (f a).seen view = []) : (c.bind f).seen view = c.seen view := by
  rw [seen_bind]
  cases c.ending.value? <;> simp [h]

theorem seen_held (hopened : ∀ x, view (.opened x) = none)
    (hreleased : ∀ x, view (.released x) = none) (connection : Connection) (c : Course ε α) :
    (c.held connection).seen view = c.seen view := by
  unfold held seen
  cases c.ending.isOver <;> simp [hopened, hreleased]

/-! ## Workers -/

section Spawn

variable {ε' : Type} (handle : Handle) (c : Course ε α)

theorem entries_spawn : (spawn handle c : Course ε' _).entries =
    ⟨0, false, .spawned handle⟩ :: (c.entries.map Entry.byWorker ++
      if c.ending.isOver then [⟨c.length, false, .joined⟩] else []) := by
  unfold spawn
  cases c.ending <;> simp [Ending.isOver]

theorem ending_spawn : (spawn handle c : Course ε' _).ending =
    match c.ending with
    | .returned value => .returned (.ok (.ok value))
    | .failed error => .returned (.ok (.error error))
    | .panicked message => .returned (.error message)
    | .stuck => .stuck := by
  unfold spawn
  cases c.ending <;> rfl

theorem length_spawn : (spawn handle c : Course ε' _).length = c.length := by
  unfold spawn
  cases c.ending <;> rfl

theorem seen_spawn (view : Deed → Option γ) : (spawn handle c : Course ε' _).seen view =
    (view (.spawned handle)).toList ++
      (c.seen view ++ if c.ending.isOver then (view .joined).toList else []) := by
  rw [seen, entries_spawn, Entry.shown_cons, Entry.shown_append, Entry.shown_byWorker]
  cases c.ending.isOver <;> simp [seen]

theorem seen_spawn_of_none (hspawned : ∀ handle, view (.spawned handle) = none)
    (hjoined : view .joined = none) : (spawn handle c : Course ε' _).seen view = c.seen view := by
  rw [seen_spawn, hspawned, hjoined]
  cases c.ending.isOver <;> exact List.append_nil _

end Spawn

/-! ## Deadlines -/

theorem endsBy_iff {c : Course ε α} {limit : Nat} :
    c.endsBy limit = true ↔ c.ending.isOver = true ∧ c.length ≤ limit := by
  simp [endsBy]

theorem ending_within (limit : Nat) (late : Notice) (error : ε) (c : Course ε α) :
    (c.within limit late error).ending =
      if c.endsBy limit then c.ending else .failed error := by
  unfold within
  split <;> rfl

theorem gives_within_iff {limit : Nat} {late : Notice} {error : ε} {c : Course ε α} {a : α}
    {n : Nat} : (c.within limit late error).Gives a n ↔ c.Gives a n ∧ n ≤ limit := by
  unfold within
  split
  · rename_i h
    have hlen := (endsBy_iff.1 h).2
    constructor
    · rintro ⟨ha, rfl⟩
      exact ⟨⟨ha, rfl⟩, hlen⟩
    · exact fun h => h.1
  · rename_i h
    constructor
    · rintro ⟨ha, _⟩
      cases ha
    · rintro ⟨⟨ha, rfl⟩, hn⟩
      exact absurd (endsBy_iff.2 ⟨by rw [ha]; rfl, hn⟩) h

theorem within_ne_stuck (limit : Nat) (late : Notice) (error : ε) (c : Course ε α) :
    (c.within limit late error).ending ≠ .stuck := by
  rw [ending_within]
  split
  · rename_i h
    intro hstuck
    have hover := (endsBy_iff.1 h).1
    rw [hstuck] at hover
    cases hover
  · simp

/-- The deeds that a view shows are done at the start of the course, before any time passes. -/
def Opens (view : Deed → Option γ) (shown : List γ) (c : Course ε α) : Prop :=
  ∃ es rest, c.entries = es ++ rest ∧ (∀ e ∈ es, e.time = 0) ∧ Entry.shown view es = shown ∧
    Entry.shown view rest = []

namespace Opens

variable {shown : List γ} {c : Course ε α}

theorem seen_eq (h : c.Opens view shown) : c.seen view = shown := by
  obtain ⟨es, rest, hsplit, _, hes, hrest⟩ := h
  rw [seen, hsplit, Entry.shown_append, hes, hrest, List.append_nil]

theorem bind (h : c.Opens view shown) {f : α → Course ε β} (hf : ∀ a, (f a).seen view = []) :
    (c.bind f).Opens view shown := by
  obtain ⟨es, rest, hsplit, htime, hes, hrest⟩ := h
  refine ⟨es, rest ++ _, by rw [entries_bind, hsplit, List.append_assoc], htime, hes, ?_⟩
  rw [Entry.shown_append, hrest, List.nil_append]
  cases c.ending.value? with
  | none => rfl
  | some a =>
    rw [Option.elim_some, Entry.shown_later]
    exact hf a

theorem after_deed {deed : Deed} (hdeed : view deed = none) {f : Unit → Course ε β}
    (h : (f ()).Opens view shown) : ((Course.deed deed).bind f).Opens view shown := by
  obtain ⟨es, rest, hsplit, htime, hes, hrest⟩ := h
  refine ⟨⟨0, false, deed⟩ :: es.map (Entry.later 0), rest.map (Entry.later 0), ?_, ?_, ?_, ?_⟩
  · simp [Course.bind, Course.deed, hsplit]
  · intro e he
    rcases List.mem_cons.1 he with rfl | he
    · rfl
    · obtain ⟨e', he', rfl⟩ := List.mem_map.1 he
      simp [Entry.later, htime e' he']
  · simp [hdeed, hes]
  · simp [hrest]

/-- **No deadline cuts off what is done at the start.** -/
theorem seen_within (h : c.Opens view shown) (hreleased : ∀ x, view (.released x) = none)
    (hnote : ∀ n, view (.note n) = none) (limit : Nat) (late : Notice) (error : ε) :
    (c.within limit late error).seen view = shown := by
  unfold within
  split
  · exact h.seen_eq
  · obtain ⟨es, rest, hsplit, htime, hes, hrest⟩ := h
    have hkept : (es ++ rest).takeWhile (fun (e : Entry) => decide (e.time ≤ limit)) =
        es ++ rest.takeWhile fun (e : Entry) => decide (e.time ≤ limit) :=
      List.takeWhile_append_of_pos fun e he => by simp [htime e he]
    have hcut :
        Entry.shown view (rest.takeWhile fun (e : Entry) => decide (e.time ≤ limit)) = [] := by
      rw [Entry.shown_eq_nil_iff] at hrest ⊢
      exact fun e he => hrest e (List.takeWhile_subset _ he)
    rw [hsplit, hkept]
    simp [seen, hes, hcut, hnote, Entry.shown_releases hreleased]

end Opens

end Course

end BatchRun
