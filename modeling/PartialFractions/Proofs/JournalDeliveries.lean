import Mathlib.Data.List.Basic
import PartialFractions.Journal.Session

/-!
What a session writes, told from its steps alone. An entry is delivered if the latest setup or reset
before it is a setup whose level it reaches: its lines go to the error stream, and to the file of
that setup. Nothing else is written, and files only grow at their end.
-/
namespace PartialFractions.Journal

namespace Level

def all : List Level := [.debug, .info, .warning, .error, .critical]

def names : Level → List String
  | .debug => ["DEBUG"]
  | .info => ["INFO"]
  | .warning => ["WARNING", "WARN"]
  | .error => ["ERROR"]
  | .critical => ["CRITICAL", "FATAL"]

def capitals (word : String) : String := String.ofList (word.toList.flatMap Text.capitals)

/-- The words that name something else where a level is looked up. -/
def foreignNames : List String := ["BASIC_FORMAT", "_STYLES"]

/-- The level that a word asks for in any case of letters; a word that names none asks for
warnings. -/
def meant (word : String) : Level :=
  (all.find? fun l => decide (capitals word ∈ l.names)).getD .warning

/-- What is looked up for a word is the level that it asks for. -/
theorem exists_thresholdNamed {word : String} (h : capitals word ∉ foreignNames) :
    ∃ t, Session.thresholdNamed word = .ok t ∧ t.getD Session.defaultLevel = meant word := by
  have hlookup (name : String) : (ofName? name).getD Session.defaultLevel =
      (all.find? fun l => decide (name ∈ l.names)).getD .warning := by
    unfold ofName?
    split <;> first | rfl | simp_all [all, names, Session.defaultLevel]
  have hword : String.ofList (word.toList.flatMap Text.capitals) = capitals word := rfl
  unfold Session.thresholdNamed meant
  simp only [hword]
  generalize capitals word = name at h
  split
  · exact ⟨none, rfl, rfl⟩
  · exact absurd (by decide) h
  · exact absurd (by decide) h
  · exact ⟨_, rfl, hlookup name⟩

end Level

structure Setup where
  threshold : Level
  file : Option String
  deriving DecidableEq, Repr

/-- An entry that is written, with the file of the setup under which it is. -/
structure Delivery where
  time : String
  entry : Entry
  file : Option String
  deriving DecidableEq, Repr

def Delivery.lines (d : Delivery) : List String := Text.lines (d.entry.line d.time ++ "\n")

/-- Text with a line end behind it has a line. -/
theorem linesFrom_concat_ne_nil (pending text : List Char) :
    Text.linesFrom pending (text ++ ['\n']) ≠ [] := by
  induction text generalizing pending with
  | nil => simp [Text.linesFrom, Text.lineEnds]
  | cons c rest ih =>
    rw [List.cons_append, Text.linesFrom.eq_def]
    split
    · contradiction
    · exact List.cons_ne_nil _ _
    · next c' tail _ heq =>
      obtain ⟨rfl, rfl⟩ := List.cons.inj heq
      split
      · exact List.cons_ne_nil _ _
      · exact ih _

theorem Delivery.lines_ne_nil (d : Delivery) : d.lines ≠ [] := by
  have hchars : (d.entry.line d.time ++ "\n").toList = (d.entry.line d.time).toList ++ ['\n'] := by
    simp
  rw [Delivery.lines, Text.lines, hchars, ne_eq, List.map_eq_nil_iff]
  exact linesFrom_concat_ne_nil [] _

def linesIn (name : String) (ds : List Delivery) : List String :=
  (ds.filter fun d => decide (d.file = some name)).flatMap Delivery.lines

namespace Step

def changes : Step → Bool
  | .setup .. | .reset => true
  | .log .. => false

/-- The setup in force after some steps: the latest of the setups and resets, if that is a setup. A
file without a name is none. -/
def inForce (steps : List Step) : Option Setup :=
  match steps.reverse.find? changes with
  | some (.setup word file) => some ⟨.meant word, file.filter (! ·.isEmpty)⟩
  | _ => none

def delivery? (before : List Step) : Step → Option Delivery
  | .log time e => (inForce before).bind fun setup =>
    if setup.threshold.severity ≤ e.level.severity then some ⟨time, e, setup.file⟩ else none
  | _ => none

def deliveriesAfter (before : List Step) : List Step → List Delivery
  | [] => []
  | step :: rest => (step.delivery? before).toList ++ deliveriesAfter (before ++ [step]) rest

def deliveries (steps : List Step) : List Delivery := deliveriesAfter [] steps

/-- Whether the step is no setup with a word that names something else than a level. -/
def Proper : Step → Prop
  | .setup word _ => Level.capitals word ∉ Level.foreignNames
  | _ => True

instance : DecidablePred Proper
  | .setup .. => inferInstanceAs (Decidable (_ ∉ _))
  | .reset | .log .. => inferInstanceAs (Decidable True)

section InForce

variable {before : List Step}

@[simp] theorem inForce_setup (word : String) (file : Option String) :
    inForce (before ++ [.setup word file]) = some ⟨.meant word, file.filter (! ·.isEmpty)⟩ := by
  rw [inForce, List.reverse_concat, List.find?_cons_of_pos rfl]

@[simp] theorem inForce_reset : inForce (before ++ [.reset]) = none := by
  rw [inForce, List.reverse_concat, List.find?_cons_of_pos rfl]

@[simp] theorem inForce_log (time : String) (e : Entry) :
    inForce (before ++ [.log time e]) = inForce before := by
  rw [inForce, List.reverse_concat, List.find?_cons_of_neg Bool.false_ne_true, inForce]

end InForce

end Step

namespace Session

def file (s : Session) (name : String) : List String := (s.files.lookup name).getD []

def destinationOf : Option Setup → Destination
  | none => .silent
  | some setup => .streams setup.file

/-- The session is as the steps that were done leave it. -/
structure Follows (s : Session) (steps : List Step) : Prop where
  destination : s.destination = destinationOf (Step.inForce steps)
  threshold : ∀ setup ∈ Step.inForce steps, s.threshold.getD defaultLevel = setup.threshold

/-- What a step or a run writes is what is delivered. -/
structure Delivers (s : Session) (ds : List Delivery) (result : Session × List String) : Prop where
  written : result.2 = ds.flatMap Delivery.lines
  file : ∀ name, result.1.file name = s.file name ++ linesIn name ds

section Files

variable (files : List (String × List String)) (name other : String) (lines : List String)

theorem lookup_map (g : String → List String → List String) :
    (files.map fun f => (f.1, g f.1 f.2)).lookup other = (files.lookup other).map (g other) := by
  induction files with
  | nil => rfl
  | cons f rest ih =>
    obtain ⟨n, old⟩ := f
    by_cases hother : other = n
    · subst other
      simp
    · rw [List.map_cons, List.lookup_cons, List.lookup_cons, beq_false_of_ne hother, ih]

theorem append_of_opened (h : files.any (·.1 == name) = true) :
    append files name lines =
      files.map fun f => (f.1, if f.1 = name then f.2 ++ lines else f.2) := by
  rw [append, if_pos h]
  refine List.map_congr_left fun f _ => ?_
  by_cases hn : f.1 = name <;> simp [hn]

/-- The lines stand at the end of the file called `name`, and no other file differs. -/
theorem lookup_append : ((append files name lines).lookup other).getD [] =
    (files.lookup other).getD [] ++ if other = name then lines else [] := by
  by_cases hopened : files.any (·.1 == name) = true
  · rw [append_of_opened files name lines hopened,
      lookup_map files other fun n old => if n = name then old ++ lines else old]
    cases hfound : files.lookup other with
    | some old => by_cases hother : other = name <;> simp [hother]
    | none =>
      -- a file that was not opened is another one
      have hother : other ≠ name := by
        rintro rfl
        obtain ⟨f, hf, heq⟩ := List.any_eq_true.mp hopened
        have hne := bne_iff_ne.mp (List.lookup_eq_none_iff.mp hfound f hf)
        exact hne (eq_of_beq heq).symm
      simp [hother]
  · rw [append, if_neg hopened, List.lookup_append]
    by_cases hother : other = name
    · subst other
      have hnone : files.lookup name = none := by
        refine List.lookup_eq_none_iff.mpr fun f hf => bne_iff_ne.mpr ?_
        rintro rfl
        exact hopened (List.any_eq_true.mpr ⟨f, hf, beq_self_eq_true f.1⟩)
      simp [hnone]
    · rw [List.lookup_cons, beq_false_of_ne hother, if_neg hother]
      simp

end Files

section Runs

variable {s : Session} {before : List Step}

theorem write_of_silent (h : s.destination = .silent) (time : String) (entries : List Entry) :
    s.write time entries = (s, []) := by
  rw [write, h]

theorem write_of_streams (h : s.destination = .streams none) (time : String)
    (entries : List Entry) : s.write time entries = (s, s.linesOf time entries) := by
  rw [write, h]

theorem write_of_file {name : String} (h : s.destination = .streams (some name)) (time : String)
    (entries : List Entry) : s.write time entries =
      ({ s with files := append s.files name (s.linesOf time entries) },
        s.linesOf time entries) := by
  simp only [write, h]

theorem run_cons (s : Session) (step : Step) (rest : List Step) : s.run (step :: rest) =
    (((s.step step).1.run rest).1, (s.step step).2 ++ ((s.step step).1.run rest).2) := rfl

theorem file_setup (s : Session) (word : String) (asked : Option String) (name : String) :
    (s.setup word asked).1.file name = s.file name := by
  unfold setup
  split
  · rfl
  · cases hfile : asked.filter (! ·.isEmpty) with
    | none => simp [file]
    | some opened => simp [file, lookup_append]

theorem Follows.with_files (h : s.Follows before) (files : List (String × List String))
    (time : String) (e : Entry) :
    ({ s with files } : Session).Follows (before ++ [.log time e]) where
  destination := by simpa using h.destination
  threshold := by simpa using h.threshold

/-- The lines of an entry under a setup are those that are delivered. -/
theorem Follows.linesOf_eq (h : s.Follows before) {setup : Setup}
    (hforce : Step.inForce before = some setup) (time : String) (e : Entry) :
    s.linesOf time [e] =
      ((Step.log time e).delivery? before).toList.flatMap Delivery.lines := by
  have haccepts : s.accepts e = decide (setup.threshold.severity ≤ e.level.severity) := by
    rw [accepts, h.threshold setup hforce]
  by_cases hlevel : setup.threshold.severity ≤ e.level.severity <;>
    simp [linesOf, haccepts, Step.delivery?, hforce, hlevel, Delivery.lines]

/-- What an entry adds to a file under a setup. -/
theorem linesIn_delivery? {setup : Setup} (hforce : Step.inForce before = some setup)
    (time : String) (e : Entry) (name : String) :
    linesIn name ((Step.log time e).delivery? before).toList =
      if setup.file = some name then
        ((Step.log time e).delivery? before).toList.flatMap Delivery.lines
      else [] := by
  by_cases hlevel : setup.threshold.severity ≤ e.level.severity <;>
    by_cases hfile : setup.file = some name <;>
      simp [linesIn, Step.delivery?, hforce, hlevel, hfile]

/-- A record leaves the session as its history says and goes to the handlers set up last. -/
theorem Follows.log (h : s.Follows before) (time : String) (e : Entry) :
    (s.write time [e]).1.Follows (before ++ [.log time e]) ∧
      Delivers s ((Step.log time e).delivery? before).toList (s.write time [e]) := by
  have hdestination := h.destination
  cases hforce : Step.inForce before with
  | none =>
    rw [hforce] at hdestination
    have hnothing : (Step.log time e).delivery? before = none := by
      simp [Step.delivery?, hforce]
    rw [write_of_silent hdestination, hnothing]
    exact ⟨h.with_files s.files time e, rfl, fun name => by simp [linesIn]⟩
  | some setup =>
    have hlines := h.linesOf_eq hforce time e
    have hfile := linesIn_delivery? hforce time e
    rw [hforce, destinationOf] at hdestination
    cases hasked : setup.file with
    | none =>
      rw [hasked] at hdestination
      rw [write_of_streams hdestination]
      refine ⟨h.with_files s.files time e, hlines, fun name => ?_⟩
      simp [hfile, hasked]
    | some opened =>
      rw [hasked] at hdestination
      rw [write_of_file hdestination]
      refine ⟨h.with_files _ time e, hlines, fun name => ?_⟩
      rw [hfile, hasked, file, lookup_append, hlines]
      simp [file, eq_comm]

/-- A step keeps a session with its steps, and writes what it delivers. -/
theorem Follows.step (h : s.Follows before) {step : Step} (hproper : step.Proper) :
    (s.step step).1.Follows (before ++ [step]) ∧
      Delivers s (step.delivery? before).toList (s.step step) := by
  cases step with
  | setup word asked =>
    obtain ⟨t, ht, hmeant⟩ := Level.exists_thresholdNamed hproper
    refine ⟨⟨?_, ?_⟩, rfl, fun name => ?_⟩
    · simp [Session.step, setup, ht, destinationOf]
    · simp [Session.step, setup, ht, hmeant]
    · simp [Session.step, file_setup, Step.delivery?, linesIn]
  | reset =>
    refine ⟨⟨?_, ?_⟩, rfl, fun name => ?_⟩
    · simp [Session.step, reset, destinationOf]
    · simp
    · simp [Session.step, reset, file, Step.delivery?, linesIn]
  | log time e => exact h.log time e

theorem linesIn_append (name : String) (ds others : List Delivery) :
    linesIn name (ds ++ others) = linesIn name ds ++ linesIn name others := by
  simp [linesIn]

/-- A run writes what its steps deliver, one after the other. -/
theorem Follows.run (h : s.Follows before) {steps : List Step}
    (hproper : ∀ step ∈ steps, step.Proper) :
    (s.run steps).1.Follows (before ++ steps) ∧
      Delivers s (Step.deliveriesAfter before steps) (s.run steps) := by
  induction steps generalizing s before with
  | nil =>
    refine ⟨by simpa [Session.run] using h, rfl, fun name => ?_⟩
    simp [Session.run, Step.deliveriesAfter, linesIn]
  | cons step rest ih =>
    obtain ⟨hstep, hrest⟩ := List.forall_mem_cons.mp hproper
    obtain ⟨hnext, hwritten⟩ := h.step hstep
    obtain ⟨hlast, hlater⟩ := ih hnext hrest
    rw [run_cons, Step.deliveriesAfter]
    refine ⟨by simpa using hlast, ?_, fun name => ?_⟩
    · rw [List.flatMap_append, hwritten.written, hlater.written]
    · rw [linesIn_append, hlater.file, hwritten.file, List.append_assoc]

theorem run_append (s : Session) (steps more : List Step) : s.run (steps ++ more) =
    (((s.run steps).1.run more).1, (s.run steps).2 ++ ((s.run steps).1.run more).2) := by
  induction steps generalizing s with
  | nil => rfl
  | cons step rest ih => rw [List.cons_append, run_cons, run_cons, ih, List.append_assoc]

/-- No step takes a line out of a file, whether its level is accepted or not. -/
theorem prefix_file_step (s : Session) (step : Step) (name : String) :
    s.file name <+: (s.step step).1.file name := by
  cases step with
  | setup word asked => exact (file_setup s word asked name).symm ▸ List.prefix_rfl
  | reset => exact List.prefix_rfl
  | log time e =>
    rw [Session.step]
    cases hdestination : s.destination with
    | silent => simp only [write_of_silent hdestination, List.prefix_rfl]
    | missing => simp only [write, hdestination, List.prefix_rfl]
    | streams asked =>
      cases asked with
      | none => simp only [write_of_streams hdestination, List.prefix_rfl]
      | some opened =>
        rw [write_of_file hdestination, file, file, lookup_append]
        exact List.prefix_append _ _

theorem prefix_file_run (s : Session) (steps : List Step) (name : String) :
    s.file name <+: (s.run steps).1.file name := by
  induction steps generalizing s with
  | nil => exact List.prefix_rfl
  | cons step rest ih => exact (prefix_file_step s step name).trans (ih _)

end Runs

def handlersUnder : Option Setup → List String
  | none => ["NullHandler"]
  | some ⟨_, none⟩ => ["StreamHandler"]
  | some ⟨_, some _⟩ => ["StreamHandler", "FileHandler"]

/-- Whatever is done to a session, its outputs are those of the setup in force, what it writes to
the error stream and to its files is what the steps deliver, and what a file once holds stays at its
front. -/
theorem run_delivers (files : List (String × List String)) {steps : List Step}
    (hproper : ∀ step ∈ steps, step.Proper) :
    (({ files } : Session).run steps).1.handlers = handlersUnder (Step.inForce steps) ∧
      (({ files } : Session).run steps).2 = (Step.deliveries steps).flatMap Delivery.lines ∧
      (∀ d ∈ Step.deliveries steps, d.lines ≠ []) ∧
      (∀ name, (({ files } : Session).run steps).1.file name =
        ({ files } : Session).file name ++ linesIn name (Step.deliveries steps)) ∧
      ∀ earlier later, steps = earlier ++ later → ∀ name,
        (({ files } : Session).run earlier).1.file name <+:
          (({ files } : Session).run steps).1.file name := by
  have hstart : ({ files } : Session).Follows [] := ⟨rfl, by simp [Step.inForce]⟩
  obtain ⟨hfollows, hdelivers⟩ := hstart.run hproper
  refine ⟨?_, hdelivers.written, fun d _ => d.lines_ne_nil, hdelivers.file, ?_⟩
  · rw [handlers, hfollows.destination, List.nil_append]
    cases Step.inForce steps with
    | none => rfl
    | some setup =>
      obtain ⟨threshold, asked⟩ := setup
      cases asked <;> rfl
  · rintro earlier later rfl name
    rw [run_append]
    exact prefix_file_run _ later name

/-- An entry under a setup, one after a reset, one below and one at the level of the next setup. -/
def sampleSteps : List Step :=
  [.setup "debug" (some "a.log"), .log "1" ⟨.debug, some "NO_FRACTION", "parfrac.cli", "one"⟩,
    .reset, .log "2" ⟨.critical, none, "parfrac", "two"⟩,
    .setup "loud" none, .log "3" ⟨.info, none, "parfrac", "three"⟩,
    .log "4" ⟨.warning, none, "parfrac", "four"⟩]

theorem run_delivers_sample :
    (({} : Session).run sampleSteps).1.handlers = ["StreamHandler"] ∧
      (({} : Session).run sampleSteps).2 =
        ["1 [DEBUG:NO_FRACTION] parfrac.cli: one", "4 [WARNING] parfrac: four"] ∧
      (({} : Session).run sampleSteps).1.file "a.log" =
        ["1 [DEBUG:NO_FRACTION] parfrac.cli: one"] := by
  have hproper : ∀ step ∈ sampleSteps, step.Proper := by decide +kernel
  obtain ⟨hhandlers, hwritten, -, hfile, -⟩ := run_delivers [] hproper
  have hforce : handlersUnder (Step.inForce sampleSteps) = ["StreamHandler"] := by decide +kernel
  have hlines : (Step.deliveries sampleSteps).flatMap Delivery.lines =
      ["1 [DEBUG:NO_FRACTION] parfrac.cli: one", "4 [WARNING] parfrac: four"] := by decide +kernel
  have hadded : ({} : Session).file "a.log" ++ linesIn "a.log" (Step.deliveries sampleSteps) =
      ["1 [DEBUG:NO_FRACTION] parfrac.cli: one"] := by decide +kernel
  exact ⟨hhandlers.trans hforce, hwritten.trans hlines, (hfile "a.log").trans hadded⟩

end Session

end PartialFractions.Journal
