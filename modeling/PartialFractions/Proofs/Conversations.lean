import PartialFractions.CommandLine.Program
import PartialFractions.Proofs.FailedRequests

/-!
Conversations over the lines of the input. What is printed for a line depends on that line alone,
and a conversation is a fold of it over the lines in front of the first one that leaves. It comes to
its end unless the report about a line ends in a fault, which takes a row of digits that is too
long, or a precision that is too great.
-/
namespace PartialFractions.CommandLine

open Text Journal Number

/-- The lines in front of the first one that leaves. -/
def linesRead (lines : List String) : List Line :=
  (lines.map Line.ofText).takeWhile fun line => decide (line ≠ .leave)

/-- What stands at the end: the prompt in front of the line that leaves, or one with a line end
where the input ends. -/
def farewell (lines : List String) : Printed :=
  if .leave ∈ lines.map Line.ofText then ⟨prompt, [], .ok 0⟩ else Printed.line prompt 0

section Folds

variable (around : Surroundings) (settings : Settings) (task : Task)

def Line.report : Line → Printed
  | .blank | .leave => ⟨"", [], .ok 0⟩
  | .expression text => processExpression around settings task text

def Line.turn (line : Line) : Printed :=
  { line.report around settings task with
    output := prompt ++ (line.report around settings task).output }

def Line.Passes (line : Line) : Prop :=
  ∃ status, (line.report around settings task).status = .ok status

def turns (read : List Line) (last : Printed) : Printed :=
  read.foldr (fun line rest => (line.turn around settings task).followedBy rest) last

def turnsText (read : List Line) : String :=
  String.join (read.map fun line => (line.turn around settings task).output)

def turnsEntries (read : List Line) : List Entry :=
  read.flatMap fun line => (line.turn around settings task).entries

def conversation (lines : List String) : Printed :=
  Printed.followedBy ⟨banner, [], .ok 0⟩ (interact around settings task lines)

end Folds

variable {around : Surroundings} {settings : Settings} {task : Task}

theorem Printed.followedBy_of_ok {first second : Printed} {status : ℕ}
    (h : first.status = .ok status) : first.followedBy second =
      ⟨first.output ++ second.output, first.entries ++ second.entries, second.status⟩ := by
  rw [followedBy, h]

theorem Printed.followedBy_of_error {first second : Printed} {f : Fault}
    (h : first.status = .error f) : first.followedBy second = first := by
  rw [followedBy, h]

/-- Without something else to do the program has a conversation over its input. -/
theorem Options.run_eq_conversation {o : Options} (h : o.single? around settings = none)
    (input : String) :
    o.run around settings input = conversation around settings o.task (inputLines input) := by
  rw [Options.run, h, conversation]

section Turns

variable {line : String} {rest : List String}

theorem linesRead_cons (h : Line.ofText line ≠ .leave) :
    linesRead (line :: rest) = Line.ofText line :: linesRead rest := by
  rw [linesRead, List.map_cons, List.takeWhile_cons_of_pos (by simpa using h), linesRead]

theorem linesRead_leave (h : Line.ofText line = .leave) : linesRead (line :: rest) = [] := by
  rw [linesRead, List.map_cons, List.takeWhile_cons_of_neg (by simpa using h)]

theorem farewell_cons (h : Line.ofText line ≠ .leave) :
    farewell (line :: rest) = farewell rest := by
  simp [farewell, h.symm]

/-- A line that is read takes its turn, and the others come after it. -/
theorem interact_cons (h : Line.ofText line ≠ .leave) :
    interact around settings task (line :: rest) =
      ((Line.ofText line).turn around settings task).followedBy
        (interact around settings task rest) := by
  rw [interact]
  cases hline : Line.ofText line with
  | blank => simp [Line.turn, Line.report]
  | leave => exact absurd hline h
  | expression text => rfl

/-- The lines that are read take their turns, whatever they are. -/
theorem interact_eq_turns (lines : List String) :
    interact around settings task lines =
      turns around settings task (linesRead lines) (farewell lines) := by
  induction lines with
  | nil => rfl
  | cons line rest ih =>
    by_cases h : Line.ofText line = .leave
    · rw [interact, h, linesRead_leave h, farewell, List.map_cons, h, if_pos List.mem_cons_self]
      rfl
    · rw [interact_cons h, ih, linesRead_cons h, farewell_cons h]
      rfl

end Turns

section Passing

variable {read before after : List Line} {line : Line}

/-- Lines that are answered without a fault leave the conversation going, with their own output. -/
theorem turns_of_passes (h : ∀ line ∈ read, line.Passes around settings task) (last : Printed) :
    turns around settings task read last = ⟨turnsText around settings task read ++ last.output,
      turnsEntries around settings task read ++ last.entries, last.status⟩ := by
  induction read with
  | nil => simp [turns, turnsText, turnsEntries]
  | cons line read ih =>
    obtain ⟨⟨status, hline⟩, hread⟩ := List.forall_mem_cons.mp h
    have hturn : (line.turn around settings task).status = .ok status := hline
    rw [turns, List.foldr_cons, Printed.followedBy_of_ok hturn]
    rw [turns] at ih
    rw [ih hread]
    simp [turnsText, turnsEntries, String.append_assoc]

/-- The turns end with the first one that has a fault. -/
theorem turns_of_fault (hbefore : ∀ line ∈ before, line.Passes around settings task) {f : Fault}
    (hline : (line.report around settings task).status = .error f) (last : Printed) :
    turns around settings task (before ++ line :: after) last =
      ⟨turnsText around settings task before ++ (line.turn around settings task).output,
        turnsEntries around settings task before ++ (line.turn around settings task).entries,
        .error f⟩ := by
  have hturn : (line.turn around settings task).status = .error f := hline
  have hstop : turns around settings task (line :: after) last =
      line.turn around settings task := Printed.followedBy_of_error hturn
  rw [turns] at hstop
  rw [turns, List.foldr_append, hstop]
  rw [← turns, turns_of_passes hbefore, hturn]

/-- A conversation has no fault, or a first one. -/
theorem passes_or_exists_fault (around : Surroundings) (settings : Settings) (task : Task)
    (read : List Line) :
    (∀ line ∈ read, line.Passes around settings task) ∨
      ∃ before line after f, read = before ++ line :: after ∧
        (∀ line ∈ before, line.Passes around settings task) ∧
        (line.report around settings task).status = .error f := by
  induction read with
  | nil => exact Or.inl (by simp)
  | cons line read ih =>
    cases hstatus : (line.report around settings task).status with
    | error f => exact Or.inr ⟨[], line, read, f, rfl, by simp, hstatus⟩
    | ok status =>
      rcases ih with hread | ⟨before, line', after, f, rfl, hbefore, hfault⟩
      · exact Or.inl (List.forall_mem_cons.mpr ⟨⟨status, hstatus⟩, hread⟩)
      · exact Or.inr ⟨line :: before, line', after, f, rfl,
          List.forall_mem_cons.mpr ⟨⟨status, hstatus⟩, hbefore⟩, hfault⟩

end Passing

section Reports

variable {text : String} {f : Fault}

/-- Without verification a report has a fault only where the request of the expression has one, and
then nothing is printed. -/
theorem request_of_fault (hverify : task.verify = false)
    (h : (processExpression around settings task text).status = .error f) :
    (decompose settings (some text) >>= task.request.answer settings) = .error (.fault f) ∧
      (processExpression around settings task text).output = "" := by
  have hreport {failure : Failure}
      (h : (failureReport settings text failure).status = .error f) :
      failure = .fault f ∧ (failureReport settings text failure).output = "" := by
    cases failure with
    | refused r => cases h
    | fault g =>
      obtain rfl := Except.error.inj h
      exact ⟨rfl, rfl⟩
  unfold processExpression at h ⊢
  cases hd : decompose settings (some text) with
  | error failure =>
    rw [hd] at h
    obtain ⟨rfl, houtput⟩ := hreport h
    exact ⟨rfl, houtput⟩
  | ok d =>
    rw [hd] at h
    dsimp only at h ⊢
    cases hanswer : task.request.answer settings d with
    | error failure =>
      rw [hanswer] at h
      obtain ⟨rfl, houtput⟩ := hreport h
      exact ⟨hanswer, houtput⟩
    | ok latex =>
      rw [hanswer, hverify] at h
      cases h

/-- A fault of the request is a fault of the line that makes it. -/
theorem status_of_request
    (h : (decompose settings (some text) >>= task.request.answer settings) = .error (.fault f)) :
    (processExpression around settings task text).status = .error f := by
  unfold processExpression
  cases hd : decompose settings (some text) with
  | error failure =>
    rw [hd] at h
    obtain rfl := Except.error.inj h
    rfl
  | ok d =>
    rw [hd] at h
    have hanswer : task.request.answer settings d = .error (.fault f) := h
    dsimp only
    rw [hanswer]
    rfl

theorem precision_le_of_error {precision : ℤ} (hpositive : 0 < precision) {fault : PrecisionFault}
    (h : significantCount precision = .error fault) : 2147483648 ≤ precision := by
  by_contra hsmall
  obtain ⟨count, hcount⟩ :=
    exists_significantCount (show 0 ≤ precision by omega) (by omega)
  cases hcount.symm.trans h

/-- What it takes for a report to have a fault: a row of digits in the line that is too long, or a
precision that is too great. -/
theorem fault_cases (hverify : task.verify = false) (hprecision : 0 < settings.precision)
    (h : (processExpression around settings task text).status = .error f) :
    (∃ n, f = .integerTooLong n ∧ HasLongRow text.toList n) ∨
      ∃ fault, f = .precision fault ∧ 2147483648 ≤ settings.precision := by
  obtain ⟨hrequest, -⟩ := request_of_fault hverify h
  cases failsWithin_request settings task.request (some text) _ hrequest with
  | @tooLong n hlong => exact Or.inl ⟨n, rfl, hlong⟩
  | @precision fault hfault => exact Or.inr ⟨fault, rfl, precision_le_of_error hprecision hfault⟩

end Reports

/-- A conversation is the banner and then a turn for every line that is read. If the reports about
them have no faults, it prints all turns and the farewell, and ends well. Otherwise it ends with the
prompt in front of the first line that has a fault, which takes a row of digits in that line that is
too long, or a precision that is too great. -/
theorem conversation_cases (around : Surroundings) {settings : Settings} {task : Task}
    (hverify : task.verify = false) (hprecision : 0 < settings.precision) (lines : List String) :
    conversation around settings task lines = Printed.followedBy ⟨banner, [], .ok 0⟩
        (turns around settings task (linesRead lines) (farewell lines)) ∧
      ((∀ line ∈ linesRead lines, line.Passes around settings task) ∧
          conversation around settings task lines =
            ⟨banner ++ (turnsText around settings task (linesRead lines) ++
                (farewell lines).output),
              turnsEntries around settings task (linesRead lines), .ok 0⟩ ∨
        ∃ before text after f, linesRead lines = before ++ .expression text :: after ∧
          (∀ line ∈ before, line.Passes around settings task) ∧
          (conversation around settings task lines).output =
            banner ++ (turnsText around settings task before ++ prompt) ∧
          (conversation around settings task lines).status = .error f ∧
          ((∃ n, f = .integerTooLong n ∧ HasLongRow text.toList n) ∨
            ∃ fault, f = .precision fault ∧ 2147483648 ≤ settings.precision)) := by
  have hfold : conversation around settings task lines = Printed.followedBy ⟨banner, [], .ok 0⟩
      (turns around settings task (linesRead lines) (farewell lines)) := by
    rw [conversation, interact_eq_turns]
  refine ⟨hfold, ?_⟩
  rcases passes_or_exists_fault around settings task (linesRead lines) with
    hpasses | ⟨before, line, after, f, hread, hbefore, hfault⟩
  · refine Or.inl ⟨hpasses, ?_⟩
    have hlast : (farewell lines).entries = [] ∧ (farewell lines).status = .ok 0 := by
      unfold farewell
      split <;> exact ⟨rfl, rfl⟩
    rw [hfold, turns_of_passes hpasses, Printed.followedBy_of_ok rfl, hlast.1, hlast.2]
    simp
  · -- only an expression has a report that can fault
    cases line with
    | blank | leave => cases hfault
    | expression text =>
      obtain ⟨-, houtput⟩ := request_of_fault hverify hfault
      have hturn : (Line.turn around settings task (.expression text)).output = prompt := by
        rw [Line.turn, Line.report, houtput, String.append_empty]
      refine Or.inr ⟨before, text, after, f, hread, hbefore, ?_, ?_,
        fault_cases hverify hprecision hfault⟩
      · rw [hfold, hread, turns_of_fault hbefore hfault, Printed.followedBy_of_ok rfl, hturn]
      · rw [hfold, hread, turns_of_fault hbefore hfault, Printed.followedBy_of_ok rfl]

def sampleLines : List String :=
  ["  ", "\\frac\x7b1\x7d\x7b(x - 1)(x + 2)\x7d", "x + 1 ", " Quit", "exit"]

theorem conversation_cases_sample : linesRead sampleLines =
      [.blank, .expression "\\frac\x7b1\x7d\x7b(x - 1)(x + 2)\x7d", .expression "x + 1"] ∧
    (conversation ⟨"", "", ""⟩ {} ⟨true, false⟩ sampleLines).status = .ok 0 ∧
    (conversation ⟨"", "", ""⟩ {} ⟨true, false⟩ sampleLines).output =
      banner ++ (turnsText ⟨"", "", ""⟩ {} ⟨true, false⟩ (linesRead sampleLines) ++ prompt) := by
  have hread : linesRead sampleLines =
      [.blank, .expression "\\frac\x7b1\x7d\x7b(x - 1)(x + 2)\x7d", .expression "x + 1"] := by
    decide +kernel
  have hfarewell : (farewell sampleLines).output = prompt := by decide +kernel
  have hstatus : (conversation ⟨"", "", ""⟩ {} ⟨true, false⟩ sampleLines).status = .ok 0 := by
    decide +kernel
  have hprecision : 0 < ({} : Settings).precision := by decide
  have hverify : (⟨true, false⟩ : Task).verify = false := rfl
  rcases (conversation_cases ⟨"", "", ""⟩ hverify hprecision sampleLines).2 with
    ⟨-, heq⟩ | ⟨before, text, after, f, -, -, -, hfault, -⟩
  · exact ⟨hread, hstatus, by rw [heq, hfarewell]⟩
  · cases hstatus.symm.trans hfault

/-- A text that begins with a backslash and has no blanks at its ends is an expression. -/
theorem Line.ofText_of_backslash {s : List Char} (htrim : trim ('\\' :: s) = '\\' :: s) :
    Line.ofText (String.ofList ('\\' :: s)) = .expression (String.ofList ('\\' :: s)) := by
  have hlower : lower ('\\' :: s) = '\\' :: lowerFrom ['\\'] s := by
    have hchar : lowerChar '\\' = ['\\'] := by decide +kernel
    rw [lower, lowerFrom, if_neg (by decide), hchar]
    rfl
  have hword : String.ofList ('\\' :: lowerFrom ['\\'] s) ∉ ["quit", "exit"] := by
    intro hmem
    simp only [List.mem_cons, List.not_mem_nil, or_false] at hmem
    rcases hmem with h | h
    · have hhead := congrArg (fun t => t.toList.head?) h
      simp at hhead
    · have hhead := congrArg (fun t => t.toList.head?) h
      simp at hhead
  rw [ofText, String.toList_ofList, htrim, if_neg (by simp), hlower, if_neg hword]

theorem Line.ofText_overPower (digits : List Char) :
    Line.ofText (String.ofList (OverPower.text digits)) =
      .expression (String.ofList (OverPower.text digits)) := by
  refine Line.ofText_of_backslash (Numeral.trimOf_eq_self ?_ ?_)
  · intro c hc
    cases hc
    decide
  · intro c hc
    have hlast : (OverPower.text digits).getLast? = some '\x7d' := by
      simp [OverPower.text, List.getLast?_cons, List.getLast?_append]
    obtain rfl := Option.some.inj (hlast.symm.trans hc)
    decide

/-- A line whose request has a fault ends the conversation, also where another one is behind it. -/
theorem conversation_of_fault {text last : String} {f : Fault} (hverify : task.verify = false)
    (hline : Line.ofText text = .expression text) (hlast : Line.ofText last = .leave)
    (hrequest : (decompose settings (some text) >>= task.request.answer settings) =
      .error (.fault f)) :
    linesRead [text, last] = [.expression text] ∧
      (conversation around settings task [text, last]).output = banner ++ prompt ∧
      (conversation around settings task [text, last]).status = .error f := by
  have hfault : ((Line.expression text).report around settings task).status = .error f :=
    status_of_request hrequest
  have hread : linesRead [text, last] = [.expression text] := by
    rw [linesRead_cons (by simp [hline]), hline, linesRead_leave hlast]
  obtain ⟨-, houtput⟩ := request_of_fault hverify hfault
  have hnone : ∀ line ∈ ([] : List Line), line.Passes around settings task := by simp
  have hturns : turns around settings task [.expression text] (farewell [text, last]) =
      ⟨"" ++ (Line.turn around settings task (.expression text)).output,
        [] ++ (Line.turn around settings task (.expression text)).entries, .error f⟩ :=
    turns_of_fault hnone hfault _
  rw [conversation, interact_eq_turns, hread, hturns, Printed.followedBy_of_ok rfl]
  refine ⟨rfl, ?_, rfl⟩
  simp [Line.turn, Line.report, houtput]

/-- A fraction over a factor with an exponent of one digit more than can be read ends the
conversation, although another line comes after it. -/
theorem exists_broken_conversation : ∃ text : String,
    text = String.ofList (OverPower.text (List.replicate 4301 '1')) ∧
      linesRead [text, "quit"] = [.expression text] ∧
      (conversation ⟨"", "", ""⟩ {} ⟨false, false⟩ [text, "quit"]).output = banner ++ prompt ∧
      (conversation ⟨"", "", ""⟩ {} ⟨false, false⟩ [text, "quit"]).status =
        .error (.integerTooLong 4301) := by
  have hquit : Line.ofText "quit" = .leave := by decide +kernel
  exact ⟨_, rfl, conversation_of_fault rfl (Line.ofText_overPower _) hquit Outcome.request_ones⟩

end PartialFractions.CommandLine
