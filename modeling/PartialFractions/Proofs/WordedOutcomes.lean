import PartialFractions.Proofs.FailedRequests

/-!
Outcomes of one request in two languages. The name of the language does not enter what is computed,
only the wording of a refusal. The details of a refusal fill every place of its wording in either
language, so there is always a message.
-/
namespace PartialFractions

namespace RefusalCode

theorem ofName?_name (c : RefusalCode) : ofName? c.name = some c := by
  cases c <;> decide

theorem name_ne_empty (c : RefusalCode) : c.name ≠ "" := by
  cases c <;> decide

end RefusalCode

namespace Refusal

/-- There is a message about the refusal in the language: no place of the wording is without a
detail, and what is made of the code and the details is what is told. -/
structure Told (r : Refusal) (language : Language) : Prop where
  filled : ∀ name ∈ (r.code.wording language).places, (r.details name).isSome
  notice : Notice.ofCode language r.kind r.code.name r.details = .ok (r.notice language)

theorem filled (r : Refusal) (language : Language) :
    ∀ name ∈ (r.code.wording language).places, (r.details name).isSome := by
  cases r <;> cases language <;>
    simp [code, RefusalCode.wording, Wording.places, details]

theorem told (r : Refusal) (language : Language) : r.Told language where
  filled := r.filled language
  notice := by
    have hmissing : (r.code.wording language).missing? r.details = none :=
      (Wording.missing?_eq_none_iff _ _).mpr (r.filled language)
    simp only [Notice.ofCode, Notice.messageFor, RefusalCode.ofName?_name, hmissing,
      if_neg r.code.name_ne_empty]
    rfl

end Refusal

namespace Outcome

def unworded : Outcome → Outcome
  | .derived latex kind => .derived latex kind
  | .failed code _ => .failed code none

/-- The outcomes of a request in two languages: the same one, or the same refusal in the words of
either language. -/
inductive Reworded (request : Request) (first second : Language) :
    Except Failure String → Outcome → Outcome → Prop
  | derived (latex : String) (kind : ExpressionKind) :
      Reworded request first second (.ok latex) (.derived (some latex) (some kind.name))
        (.derived (some latex) (some kind.name))
  | refused (r : Refusal) :
      Reworded request first second (.error (.refused r))
        (.failed (some r.code.name) (some (r.message first)))
        (.failed (some r.code.name) (some (r.message second)))
  | fault (f : Fault) :
      Reworded request first second (.error (.fault f))
        (.failed (some "INTERNAL_ERROR") (some request.faultMessage))
        (.failed (some "INTERNAL_ERROR") (some request.faultMessage))

theorem Reworded.unworded_eq {request : Request} {first second : Language}
    {result : Except Failure String} {o o' : Outcome}
    (h : Reworded request first second result o o') : o.unworded = o'.unworded := by
  cases h <;> rfl

variable (settings : Settings) (request : Request) (text : Option String)

/-- What a request computes does not depend on the language. -/
theorem request_languageName (name : String) :
    (decompose { settings with languageName := name } text >>=
        request.answer { settings with languageName := name }) =
      (decompose settings text >>= request.answer settings) := by
  cases request <;> rfl

theorem exists_outcomes (name name' : String) : ∃ o o',
    ofText { settings with languageName := name } request text = .ok o ∧
      ofText { settings with languageName := name' } request text = .ok o' ∧
      Reworded request (.ofName name) (.ofName name')
        (decompose settings text >>= request.answer settings) o o' := by
  have hcomputed := request_languageName settings request text
  cases hresult : decompose settings text >>= request.answer settings with
  | ok latex =>
    obtain ⟨d, hd, hanswer⟩ := bind_eq_ok.mp hresult
    have hderived (name : String) : ofText { settings with languageName := name } request text =
        .ok (.derived (some latex) (some d.kind.name)) := by
      refine ofText_of_answer request hd ?_
      cases request <;> exact hanswer
    exact ⟨_, _, hderived name, hderived name', .derived latex d.kind⟩
  | error failure =>
    cases failure with
    | refused r =>
      exact ⟨_, _, ofText_of_refused request ((hcomputed name).trans hresult),
        ofText_of_refused request ((hcomputed name').trans hresult), .refused r⟩
    | fault f =>
      have hcontained := (failsWithin_request settings request text _ hresult).isContained
      exact ⟨_, _, ofText_of_fault request hcontained ((hcomputed name).trans hresult),
        ofText_of_fault request hcontained ((hcomputed name').trans hresult), .fault f⟩

/-- A request has an outcome in every language, and two languages make a difference only to the
message about a refusal. All places of that message are filled in every language. -/
theorem exists_reworded (name name' : String) : ∃ o o',
    ofText { settings with languageName := name } request text = .ok o ∧
      ofText { settings with languageName := name' } request text = .ok o' ∧
      o.unworded = o'.unworded ∧
      Reworded request (.ofName name) (.ofName name')
        (decompose settings text >>= request.answer settings) o o' ∧
      ∀ r, (decompose settings text >>= request.answer settings) = .error (.refused r) →
        ∀ language, r.Told language := by
  obtain ⟨o, o', ho, ho', hreworded⟩ := exists_outcomes settings request text name name'
  exact ⟨o, o', ho, ho', hreworded.unworded_eq, hreworded, fun r _ language => r.told language⟩

end Outcome

end PartialFractions
