import PartialFractions.Proofs.JournalDeliveries

/-!
What a reset leaves of a session. Its outputs are those of a session that nothing was done to, but
the threshold of the latest setup is kept. A run from there is compared with the run of the same
steps from the start: the two are in step from the next setup on, and until then the kept threshold
shows where the level is asked for, or where a setup was refused and entries are written bare.
-/
namespace PartialFractions.Journal

namespace Step

def threshold? : Step → Option (Option Level)
  | .setup word _ => (Session.thresholdNamed word).toOption
  | _ => none

/-- The threshold of the latest setup that is not refused. -/
def latestThreshold? (steps : List Step) : Option (Option Level) :=
  steps.reverse.findSome? threshold?

end Step

namespace Session

def afterReset (files : List (String × List String)) (history : List Step) : Session :=
  (({ files } : Session).run (history ++ [.reset])).1

/-- A session to which nothing was done, on the files of this one. -/
def anew (s : Session) : Session := { files := s.files }

/-- What can be seen of the two sessions is the same. -/
structure Alike (s t : Session) : Prop where
  level : s.thresholdName = t.thresholdName
  handlers : s.handlers = t.handlers
  files : s.files = t.files

/-- The first session is the second one, except that while no threshold was asked for the first has
the threshold `kept`. -/
inductive Keeps (kept : Option Level) : Session → Session → Prop
  | same (s : Session) : Keeps kept s s
  | unset (files : List (String × List String)) {destination : Destination}
      (hdestination : ∀ file, destination ≠ .streams file) :
      Keeps kept ⟨kept, destination, files⟩ ⟨none, destination, files⟩

/-- Whether the kept threshold lets everything through that is written without one. -/
def Lenient (kept : Option Level) : Prop :=
  (kept.getD defaultLevel).severity ≤ defaultLevel.severity

/-- The same steps in two sessions, of which the first one has the threshold `kept`, and the other
none: outputs and files are the same, the levels are the same from a setup on, and so are the lines
unless a severe threshold was kept and a setup is refused. -/
structure RunsAlike (kept : Option Level) (s t : Session) (steps : List Step) : Prop where
  handlers : (s.run steps).1.handlers = (t.run steps).1.handlers
  files : (s.run steps).1.files = (t.run steps).1.files
  threshold_kept : (s.run steps).1.threshold = (Step.latestThreshold? steps).getD kept
  threshold : (t.run steps).1.threshold = (Step.latestThreshold? steps).getD none
  lines : Lenient kept ∨ (∀ step ∈ steps, step.Proper) → (s.run steps).2 = (t.run steps).2

section Runs

variable {kept : Option Level} {s t : Session}

theorem threshold_step (s : Session) (step : Step) :
    (s.step step).1.threshold = step.threshold?.getD s.threshold := by
  cases step with
  | setup word file =>
    simp only [Session.step, setup, Step.threshold?]
    cases thresholdNamed word <;> rfl
  | reset => rfl
  | log time e =>
    rw [Session.step, write]
    split <;> rfl

/-- The threshold is the one that the latest setup asked for. -/
theorem threshold_run (s : Session) (steps : List Step) :
    (s.run steps).1.threshold = (Step.latestThreshold? steps).getD s.threshold := by
  induction steps generalizing s with
  | nil => rfl
  | cons step rest ih =>
    rw [run_cons, ih, threshold_step, Step.latestThreshold?, Step.latestThreshold?,
      List.reverse_cons, List.findSome?_append, List.findSome?_singleton]
    cases rest.reverse.findSome? Step.threshold? <;> cases step.threshold? <;> rfl

theorem Keeps.handlers_eq (h : Keeps kept s t) : s.handlers = t.handlers := by
  cases h <;> rfl

theorem Keeps.files_eq (h : Keeps kept s t) : s.files = t.files := by
  cases h <;> rfl

/-- A setup that is not refused brings the two sessions together. -/
theorem Keeps.setup (h : Keeps kept s t) (word : String) (file : Option String) :
    Keeps kept (s.setup word file).1 (t.setup word file).1 := by
  cases h with
  | same => exact .same _
  | unset files _ =>
    simp only [Session.setup]
    cases thresholdNamed word with
    | ok threshold => exact .same _
    | error fault => exact .unset files fun _ => Destination.noConfusion

theorem Keeps.write (h : Keeps kept s t) (time : String) (entries : List Entry) :
    Keeps kept (s.write time entries).1 (t.write time entries).1 := by
  cases h with
  | same => exact .same _
  | @unset files destination hdestination =>
    cases destination with
    | silent | missing => exact .unset files hdestination
    | streams file => exact absurd rfl (hdestination file)

theorem Keeps.step (h : Keeps kept s t) (step : Step) :
    Keeps kept (s.step step).1 (t.step step).1 := by
  cases step with
  | setup word file => exact h.setup word file
  | reset =>
    cases h with
    | same => exact .same _
    | unset files _ => exact .unset files fun _ => Destination.noConfusion
  | log time e => exact h.write time [e]

theorem Keeps.run (h : Keeps kept s t) (steps : List Step) :
    Keeps kept (s.run steps).1 (t.run steps).1 := by
  induction steps generalizing s t with
  | nil => exact h
  | cons step rest ih => exact ih (h.step step)

/-- Entries are written bare only where a setup was refused, and there only severe ones. -/
theorem Keeps.write_lines (h : Keeps kept s t) (hlenient : Lenient kept ∨ t.destination ≠ .missing)
    (time : String) (entries : List Entry) :
    (s.write time entries).2 = (t.write time entries).2 := by
  cases h with
  | same => rfl
  | @unset files destination hdestination =>
    cases destination with
    | silent => rfl
    | streams file => exact absurd rfl (hdestination file)
    | missing =>
      have hkept : (kept.getD defaultLevel).severity ≤ defaultLevel.severity :=
        hlenient.resolve_right (not_not_intro rfl)
      have hsevere (e : Entry) :
          ((⟨kept, .missing, files⟩ : Session).accepts e &&
              decide (defaultLevel.severity ≤ e.level.severity)) =
            ((⟨none, .missing, files⟩ : Session).accepts e &&
              decide (defaultLevel.severity ≤ e.level.severity)) := by
        rw [Bool.eq_iff_iff]
        simp only [accepts, Option.getD_none, Bool.and_eq_true, decide_eq_true_eq]
        constructor <;> rintro ⟨-, hlevel⟩ <;> exact ⟨by omega, hlevel⟩
      simp only [Session.write, hsevere]

/-- No step leaves a session without destination, except a setup that is refused. -/
theorem destination_step_ne_missing (ht : t.destination ≠ .missing) {step : Step}
    (hproper : step.Proper) : (t.step step).1.destination ≠ .missing := by
  cases step with
  | setup word file =>
    obtain ⟨threshold, hnamed, -⟩ := Level.exists_thresholdNamed hproper
    simp [Session.step, Session.setup, hnamed]
  | reset => simp [Session.step, reset]
  | log time e =>
    rw [Session.step, Session.write]
    split <;> simp_all

/-- The lines are the same if the kept threshold lets them through, or no setup is refused. -/
theorem Keeps.run_lines (h : Keeps kept s t) {steps : List Step}
    (hlines : Lenient kept ∨ t.destination ≠ .missing ∧ ∀ step ∈ steps, step.Proper) :
    (s.run steps).2 = (t.run steps).2 := by
  induction steps generalizing s t with
  | nil => rfl
  | cons step rest ih =>
    have hstep : (s.step step).2 = (t.step step).2 := by
      cases step with
      | setup | reset => rfl
      | log time e => exact h.write_lines (hlines.imp_right And.left) time [e]
    have hrest : Lenient kept ∨
        (t.step step).1.destination ≠ .missing ∧ ∀ step ∈ rest, step.Proper := by
      refine hlines.imp_right ?_
      rintro ⟨ht, hproper⟩
      obtain ⟨hfirst, hothers⟩ := List.forall_mem_cons.mp hproper
      exact ⟨destination_step_ne_missing ht hfirst, hothers⟩
    rw [run_cons, run_cons, hstep, ih (h.step step) hrest]

end Runs

section AfterReset

variable (files : List (String × List String)) (history : List Step)

theorem threshold_afterReset :
    (afterReset files history).threshold = (Step.latestThreshold? history).getD none := by
  have hreset : Step.latestThreshold? (history ++ [.reset]) = Step.latestThreshold? history := by
    rw [Step.latestThreshold?, List.reverse_concat, List.findSome?_cons]
    rfl
  rw [afterReset, threshold_run, hreset]

theorem keeps_afterReset : Keeps (afterReset files history).threshold
    (afterReset files history) (afterReset files history).anew := by
  have hreset : afterReset files history = ((({ files } : Session).run history).1).reset := by
    rw [afterReset, run_append]
    rfl
  rw [hreset]
  exact .unset _ fun _ => Destination.noConfusion

/-- From a reset on, only the last threshold tells the session from a new one. -/
theorem runsAlike_afterReset (more : List Step) :
    RunsAlike ((Step.latestThreshold? history).getD none) (afterReset files history)
      (afterReset files history).anew more := by
  have hkeeps := keeps_afterReset files history
  rw [threshold_afterReset] at hkeeps
  exact {
    handlers := (hkeeps.run more).handlers_eq
    files := (hkeeps.run more).files_eq
    threshold_kept := by rw [threshold_run, threshold_afterReset]
    threshold := by rw [threshold_run, anew]
    lines := fun h => hkeeps.run_lines (h.imp_right fun hproper => ⟨by simp [anew], hproper⟩) }

theorem eq_none_of_thresholdName {s : Session} (h : s.thresholdName = "NOTSET") :
    s.threshold = none := by
  unfold thresholdName at h
  cases hthreshold : s.threshold with
  | none => rfl
  | some l => cases l <;> simp [hthreshold, Level.name] at h

/-- After a reset a session has the outputs of one that nothing was done to, and the threshold that
was asked for last. A run from there is like that of the untouched session, except for what the kept
threshold shows; it shows in no run just if there is none. -/
theorem afterReset_run :
    (afterReset files history).handlers = ["NullHandler"] ∧
      (afterReset files history).threshold = (Step.latestThreshold? history).getD none ∧
      (∀ more, RunsAlike ((Step.latestThreshold? history).getD none) (afterReset files history)
        (afterReset files history).anew more) ∧
      ((∀ more,
          Alike ((afterReset files history).run more).1
              ((afterReset files history).anew.run more).1 ∧
            ((afterReset files history).run more).2 =
              ((afterReset files history).anew.run more).2) ↔
        (Step.latestThreshold? history).getD none = none) := by
  have hruns := runsAlike_afterReset files history
  have hthreshold := threshold_afterReset files history
  refine ⟨(hruns []).handlers, hthreshold, hruns, ?_, ?_⟩
  · intro h
    have hlevel : (afterReset files history).thresholdName = "NOTSET" := (h []).1.level
    exact hthreshold.symm.trans (eq_none_of_thresholdName hlevel)
  · intro hnone more
    have hrun := hruns more
    rw [hnone] at hrun
    refine ⟨⟨?_, hrun.handlers, hrun.files⟩, hrun.lines (.inl (Nat.le_refl _))⟩
    rw [thresholdName, thresholdName, hrun.threshold_kept, hrun.threshold]

/-- A session that was set up for debugging and then reset still has that level, and one that
nothing was done to has none. -/
theorem exists_keptLevel :
    (afterReset [] [.setup "DEBUG" none]).thresholdName = "DEBUG" ∧
      (afterReset [] [.setup "DEBUG" none]).anew.thresholdName = "NOTSET" := by
  decide +kernel

end AfterReset

end Session

end PartialFractions.Journal
