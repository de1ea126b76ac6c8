/-!
# Logs of tickers

What there is to note of the tickers of a machine, and which logs of such notes are lawful
(`TickNote.Lawful`). A log has its latest note first. In a lawful one every note follows on those
before it: a ticker begins a run only while it is live, which is to say that it was started last,
that it was not told to stop since, and that no run of it has failed. What this means for whole
logs, on which a ticker is started once at most, is read off them alone.
-/

namespace CardNet

/-- What there is to note of the tickers of a machine. -/
inductive TickNote where
  /-- A ticker was asked for, and started. -/
  | started (ticker : Nat)
  /-- A ticker was asked for, and none was started. -/
  | refused
  /-- The ticker, if there was one, was told to stop. -/
  | halted
  /-- A ticker began a run. -/
  | began (ticker : Nat)
  /-- A run of a ticker succeeded. -/
  | succeeded (ticker : Nat)
  /-- A run of a ticker failed. -/
  | failed (ticker : Nat)
deriving DecidableEq

namespace TickNote

/-- The ticker that a note is about. -/
def ticker? : TickNote → Option Nat
  | started ticker | began ticker | succeeded ticker | failed ticker => some ticker
  | refused | halted => none

/-- The ticker that was started last, unless it was told to stop since. -/
def current : List TickNote → Option Nat
  | [] => none
  | started ticker :: _ => some ticker
  | halted :: _ => none
  | _ :: earlier => current earlier

/-- Whether a ticker has begun a run that has not ended. -/
def isBusy (number : Nat) : List TickNote → Bool
  | [] => false
  | began ticker :: earlier => decide (ticker = number) || isBusy number earlier
  | succeeded ticker :: earlier | failed ticker :: earlier =>
      !decide (ticker = number) && isBusy number earlier
  | _ :: earlier => isBusy number earlier

/-- Whether a ticker was started last and not told to stop since, and no run of it has failed. -/
def IsLive (log : List TickNote) (number : Nat) : Prop :=
  current log = some number ∧ failed number ∉ log

/-- Whether a note may come after those on a log. -/
def Follows (log : List TickNote) : TickNote → Prop
  | started ticker => started ticker ∉ log ∧ ∀ other, ¬IsLive log other
  | refused => ∃ ticker, IsLive log ticker
  | halted => True
  | began ticker => IsLive log ticker ∧ isBusy ticker log = false
  | succeeded ticker | failed ticker => isBusy ticker log = true

/-- Every note came after those that it may come after. -/
def Lawful : List TickNote → Prop
  | [] => True
  | note :: earlier => Follows earlier note ∧ Lawful earlier

variable {log later earlier : List TickNote} {note : TickNote} {number : Nat}

/-! ## What is known of a ticker -/

theorem mem_of_current (present : current log = some number) : started number ∈ log := by
  induction log with
  | nil => cases present
  | cons note earlier ih =>
      cases note with
      | started ticker =>
          cases present
          exact List.mem_cons_self
      | halted => cases present
      | _ => exact List.mem_cons_of_mem _ (ih present)

theorem mem_of_isBusy (busy : isBusy number log = true) : began number ∈ log := by
  induction log with
  | nil => cases busy
  | cons note earlier ih =>
      cases note with
      | began ticker =>
          by_cases same : ticker = number
          · rw [same]
            exact List.mem_cons_self
          · rw [isBusy, decide_eq_false same] at busy
            exact List.mem_cons_of_mem _ (ih busy)
      | succeeded ticker | failed ticker =>
          exact List.mem_cons_of_mem _ (ih (Bool.and_eq_true_iff.mp busy).2)
      | _ => exact List.mem_cons_of_mem _ (ih busy)

/-- A note about one ticker leaves the others as busy as they were. -/
theorem isBusy_cons (other : note.ticker? ≠ some number) :
    isBusy number (note :: log) = isBusy number log := by
  have differs : ∀ {ticker}, note.ticker? = some ticker → decide (ticker = number) = false :=
    fun about => decide_eq_false fun same => other (same ▸ about)
  cases note with
  | began ticker => rw [isBusy, differs rfl, Bool.false_or]
  | succeeded ticker | failed ticker => rw [isBusy, differs rfl, Bool.not_false, Bool.true_and]
  | _ => rfl

/-- A ticker that is current after some notes was so before, or it was started by them. -/
theorem current_of_append (unstarted : started number ∉ later)
    (present : current (later ++ earlier) = some number) : current earlier = some number := by
  induction later with
  | nil => exact present
  | cons note later ih =>
      have before := fun member => unstarted (List.mem_cons_of_mem note member)
      cases note with
      | started ticker =>
          cases present
          exact absurd List.mem_cons_self unstarted
      | halted => cases present
      | _ => exact ih before present

namespace Lawful

theorem of_append (lawful : Lawful (later ++ earlier)) : Lawful earlier := by
  induction later with
  | nil => exact lawful
  | cons note later ih => exact ih lawful.2

theorem follows (lawful : Lawful (later ++ note :: earlier)) : Follows earlier note :=
  lawful.of_append.1

theorem mem_started_of_began (lawful : Lawful log) (member : began number ∈ log) :
    started number ∈ log := by
  obtain ⟨later, earlier, rfl⟩ := List.append_of_mem member
  apply List.mem_append_right
  exact List.mem_cons_of_mem _ (mem_of_current lawful.follows.1.1)

/-- Whatever is noted about a ticker, it was started. -/
theorem mem_started (lawful : Lawful log) (member : note ∈ log)
    (about : note.ticker? = some number) : started number ∈ log := by
  obtain ⟨later, earlier, rfl⟩ := List.append_of_mem member
  have before : Lawful earlier := lawful.of_append.2
  apply List.mem_append_right
  have follows := lawful.follows
  cases note with
  | started ticker =>
      cases about
      exact List.mem_cons_self
  | began ticker =>
      cases about
      exact List.mem_cons_of_mem _ (mem_of_current follows.1.1)
  | succeeded ticker | failed ticker =>
      cases about
      exact List.mem_cons_of_mem _ (before.mem_started_of_began (mem_of_isBusy follows))
  | _ => cases about

/-- A ticker is started once. -/
theorem not_mem_started (lawful : Lawful (later ++ earlier)) (member : started number ∈ earlier) :
    started number ∉ later := by
  intro again
  obtain ⟨last, between, rfl⟩ := List.append_of_mem again
  rw [List.append_assoc, List.cons_append] at lawful
  exact lawful.follows.1 (List.mem_append_right between member)

/-! ## What becomes of a ticker -/

/-- A ticker that was started before some notes and begins a run among them was live before them. -/
theorem isLive_of_began (lawful : Lawful (later ++ earlier)) (member : started number ∈ earlier)
    (begins : began number ∈ later) : IsLive earlier number := by
  have once := lawful.not_mem_started member
  obtain ⟨last, between, rfl⟩ := List.append_of_mem begins
  rw [List.append_assoc, List.cons_append] at lawful
  obtain ⟨⟨present, sound⟩, -⟩ := lawful.follows
  refine ⟨current_of_append (fun between => ?_) present, fun fails => ?_⟩
  · exact once (List.mem_append_right last (List.mem_cons_of_mem _ between))
  · exact sound (List.mem_append_right between fails)

/-- After a run of it has failed a ticker begins no run. -/
theorem not_began_after_failed (lawful : Lawful (later ++ failed number :: earlier)) :
    began number ∉ later := by
  intro begins
  have known : started number ∈ failed number :: earlier :=
    lawful.of_append.mem_started List.mem_cons_self rfl
  exact (lawful.isLive_of_began known begins).2 List.mem_cons_self

/-- After it was told to stop no ticker that was started before begins a run. -/
theorem not_began_after_halted (lawful : Lawful (later ++ halted :: earlier))
    (member : started number ∈ earlier) : began number ∉ later := by
  intro begins
  have live := lawful.isLive_of_began (List.mem_cons_of_mem _ member) begins
  cases live.1

/-- A run that a ticker has begun has succeeded or failed, unless it is still in it. -/
theorem count_began (lawful : Lawful log) (number : Nat) :
    log.count (began number) =
      log.count (succeeded number) + log.count (failed number) + (isBusy number log).toNat := by
  induction log with
  | nil => rfl
  | cons note earlier ih =>
      have before := ih lawful.2
      by_cases about : note.ticker? = some number
      · have follows := lawful.1
        cases note with
        | started ticker => simpa [List.count_cons, isBusy] using before
        | began ticker =>
            cases about
            rw [follows.2] at before
            simpa [List.count_cons, isBusy] using before
        | succeeded ticker | failed ticker =>
            cases about
            have busy : isBusy number earlier = true := follows
            rw [busy] at before
            simp only [isBusy, List.count_cons, beq_iff_eq, reduceCtorEq, if_false, if_true,
              decide_true, Bool.not_true, Bool.false_and, Bool.toNat_true,
              Bool.toNat_false] at before ⊢
            omega
        | _ => cases about
      · have others : ∀ {kind : TickNote}, kind.ticker? = some number →
            (note :: earlier).count kind = earlier.count kind := by
          intro kind same
          exact List.count_cons_of_ne fun equal => about (by rw [equal, same])
        rw [others rfl, others rfl, others rfl, isBusy_cons about]
        exact before

end Lawful

end TickNote

end CardNet
