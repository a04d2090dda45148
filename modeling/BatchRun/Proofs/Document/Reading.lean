import BatchRun.Document.Reader
import BatchRun.Proofs.Document.Proper

/-!
# What is read is proper

A repeated key overwrites the earlier value, so that no object that is read from a text has two
members of one key.

* `Json.ReadsProper`: what a reader leaves behind is proper;
* `readValue_proper`, `readItems_proper`, `readMembers_proper`: the three readers call each other;
* **`Json.proper_of_parse`**.
-/

namespace BatchRun

namespace Json

/-- If a document is read, it is proper. -/
def ReadsProper (r : Except Failure (Document × List Char)) : Prop :=
  ∀ d rest, r = .ok (d, rest) → d.Proper

theorem readsProper_error (f : Failure) : ReadsProper (.error f) := nofun

theorem readsProper_ok {d : Document} (h : d.Proper) (rest : List Char) :
    ReadsProper (.ok (d, rest)) := by
  intro d' rest' heq
  cases heq
  exact h

theorem readsProper_bind {α : Type} {x : Except Failure α}
    {f : α → Except Failure (Document × List Char)} (h : ∀ a, x = .ok a → ReadsProper (f a)) :
    ReadsProper (x >>= f) := by
  cases x with
  | error e => exact readsProper_error e
  | ok a => exact h a rfl

theorem floatStep_proper (negative : Bool) (digits : Nat) (exponent : Int) (rest : List Char) :
    ReadsProper (floatStep negative digits exponent rest) := by
  unfold floatStep
  split
  · exact readsProper_ok (.float _) _
  · exact readsProper_error _

theorem integerStep_proper (negative : Bool) (digits : Nat) (rest : List Char) :
    ReadsProper (integerStep negative digits rest) := by
  unfold integerStep
  split
  · split
    · exact readsProper_ok (.int _) _
    · exact floatStep_proper _ _ _ _
  · split
    · exact readsProper_ok (.int _) _
    · exact floatStep_proper _ _ _ _

theorem readMagnitude_proper (negative : Bool) (cs : List Char) :
    ReadsProper (readMagnitude negative cs) := by
  cases cs with
  | nil => exact readsProper_error _
  | cons c cs =>
    unfold readMagnitude
    dsimp only
    split
    · exact readsProper_error _
    split
    · exact readsProper_error _
    split
    · -- a fraction, with or without an exponent
      refine readsProper_bind fun part _ => ?_
      split
      · split
        · exact readsProper_bind fun _ _ => floatStep_proper _ _ _ _
        · exact floatStep_proper _ _ _ _
      · exact floatStep_proper _ _ _ _
    · split
      · exact readsProper_bind fun _ _ => floatStep_proper _ _ _ _
      · exact integerStep_proper _ _ _
    · exact integerStep_proper _ _ _

theorem readWord_proper {d : Document} (h : d.Proper) (word cs : List Char) :
    ReadsProper (readWord word d cs) := by
  induction word generalizing cs with
  | nil =>
    unfold readWord
    exact readsProper_ok h _
  | cons w word ih =>
    cases cs with
    | nil =>
      unfold readWord
      exact readsProper_error _
    | cons c rest =>
      unfold readWord
      dsimp only
      split
      · exact ih rest
      · exact readsProper_error _

/-- The three readers at some fuel. -/
structure ReadersProper (fuel : Nat) : Prop where
  value : ∀ depth cs, ReadsProper (readValue fuel depth cs)
  items : ∀ depth seen cs, (∀ x ∈ seen, Document.Proper x) →
    ReadsProper (readItems fuel depth seen cs)
  members : ∀ depth (seen : Members) cs, (∀ p ∈ seen, p.2.Proper) →
    ReadsProper (readMembers fuel depth seen cs)

theorem readValue_proper {fuel : Nat} (ih : ReadersProper fuel) (depth : Nat) (cs : List Char) :
    ReadsProper (readValue (fuel + 1) depth cs) := by
  unfold readValue
  split
  · exact readsProper_error _
  · exact readWord_proper .null _ _
  · exact readWord_proper (.bool true) _ _
  · exact readWord_proper (.bool false) _ _
  · exact readMagnitude_proper _ _
  · exact readsProper_bind fun s _ => readsProper_ok (.string _) _
  · split
    · exact readsProper_error _
    · split
      · exact readsProper_ok (.array (List.forall_mem_nil _)) _
      · exact ih.items _ _ _ (List.forall_mem_nil _)
  · split
    · exact readsProper_error _
    · split
      · exact readsProper_ok (by simp) _
      · exact ih.members _ _ _ (List.forall_mem_nil _)
  · split
    · exact readMagnitude_proper _ _
    · exact readsProper_error _

theorem readItems_proper {fuel : Nat} (ih : ReadersProper fuel) (depth : Nat)
    {seen : List Document} (cs : List Char) (hseen : ∀ x ∈ seen, Document.Proper x) :
    ReadsProper (readItems (fuel + 1) depth seen cs) := by
  unfold readItems
  split
  · exact readsProper_error _
  · refine readsProper_bind fun item hitem => ?_
    have hall : ∀ x ∈ item.1 :: seen, Document.Proper x :=
      List.forall_mem_cons.2 ⟨ih.value _ _ _ _ hitem, hseen⟩
    dsimp only
    split
    · exact readsProper_error _
    · refine readsProper_ok (.array fun x hx => hall x (List.mem_reverse.1 hx)) _
    · split
      · exact readsProper_error _
      · exact readsProper_error _
      · exact ih.items _ _ _ hall
    · exact readsProper_error _

theorem readMembers_proper {fuel : Nat} (ih : ReadersProper fuel) (depth : Nat) {seen : Members}
    (cs : List Char) (hseen : ∀ p ∈ seen, p.2.Proper) :
    ReadsProper (readMembers (fuel + 1) depth seen cs) := by
  unfold readMembers
  split
  · exact readsProper_error _
  · refine readsProper_bind fun key _ => ?_
    dsimp only
    split
    · exact readsProper_error _
    · refine readsProper_bind fun value hvalue => ?_
      have hall : ∀ p ∈ (key.1, value.1) :: seen, p.2.Proper :=
        List.forall_mem_cons.2 ⟨ih.value _ _ _ _ hvalue, hseen⟩
      split
      · exact readsProper_error _
      · exact readsProper_ok (Document.proper_ofPairs fun p hp => hall p (List.mem_reverse.1 hp)) _
      · split
        · exact readsProper_error _
        · exact readsProper_error _
        · exact ih.members _ _ _ hall
      · exact readsProper_error _
    · exact readsProper_error _
  · exact readsProper_error _

theorem readersProper (fuel : Nat) : ReadersProper fuel := by
  induction fuel with
  | zero =>
    refine ⟨fun _ _ => ?_, fun _ _ _ _ => ?_, fun _ _ _ _ => ?_⟩
    · unfold readValue
      exact readsProper_error _
    · unfold readItems
      exact readsProper_error _
    · unfold readMembers
      exact readsProper_error _
  | succ fuel ih =>
    exact ⟨readValue_proper ih, fun depth _ cs => readItems_proper ih depth cs,
      fun depth _ cs => readMembers_proper ih depth cs⟩

/-- **Whatever is read from a text is proper.** -/
theorem proper_of_parse {text : String} {d : Document} (h : parse text = .ok d) : d.Proper := by
  have hread := (readersProper (2 * text.toList.length + 2)).value depthLimit text.toList
  unfold parse at h
  dsimp only at h
  cases hvalue : readValue (2 * text.toList.length + 2) depthLimit text.toList with
  | error e =>
    rw [hvalue] at h
    cases h
  | ok p =>
    rw [hvalue] at h
    dsimp only [Bind.bind, Except.bind] at h
    split at h
    · cases h
      exact hread _ _ hvalue
    · cases h

end Json

end BatchRun
