import PartialFractions.Wording

/-!
Refusals: why an expression is not decomposed. Each reason has a code that never changes and a
wording in each language; the details of the reason fill the places of its wording.
-/
namespace PartialFractions

inductive RefusalKind
  | general
  | malformedInput
  | unsupportedExpression
  | unsupportedType
  deriving DecidableEq, Repr

inductive RefusalCode
  | emptyInput
  | tooLong
  | noFraction
  | badPolynomial
  | unsupportedShape
  | missingRoot
  | numeratorDegree
  | symbolicCoefficient
  | repeatedFactor
  | unsupportedQuadratic
  | unsupportedType
  deriving DecidableEq, Repr

namespace RefusalCode

def all : List RefusalCode :=
  [.emptyInput, .tooLong, .noFraction, .badPolynomial, .unsupportedShape, .missingRoot,
    .numeratorDegree, .symbolicCoefficient, .repeatedFactor, .unsupportedQuadratic,
    .unsupportedType]

def name : RefusalCode → String
  | .emptyInput => "EMPTY_INPUT"
  | .tooLong => "TOO_LONG"
  | .noFraction => "NO_FRACTION"
  | .badPolynomial => "BAD_POLYNOMIAL"
  | .unsupportedShape => "UNSUPPORTED_SHAPE"
  | .missingRoot => "MISSING_ROOT"
  | .numeratorDegree => "NUMERATOR_DEGREE"
  | .symbolicCoefficient => "SYMBOLIC_COEFFICIENT"
  | .repeatedFactor => "REPEATED_FACTOR"
  | .unsupportedQuadratic => "UNSUPPORTED_QUADRATIC"
  | .unsupportedType => "UNSUPPORTED_TYPE"

def ofName? (s : String) : Option RefusalCode := all.find? (·.name == s)

def wording : RefusalCode → Language → Wording
  | .emptyInput, .portuguese => [.text "A expressão está vazia."]
  | .emptyInput, .english => [.text "The expression is empty."]
  | .tooLong, .portuguese =>
    [.text "A expressão é longa demais (máximo de ", .place "limit", .text " caracteres)."]
  | .tooLong, .english =>
    [.text "The expression is too long (maximum ", .place "limit", .text " characters)."]
  | .noFraction, .portuguese => [.text "A expressão deve ter uma fração."]
  | .noFraction, .english => [.text "The expression must contain a fraction."]
  | .badPolynomial, .portuguese =>
    [.text "Não foi possível ler o termo '", .place "term", .text "' do denominador."]
  | .badPolynomial, .english =>
    [.text "Could not read the denominator term '", .place "term", .text "'."]
  | .unsupportedShape, .portuguese => [.text "A expressão não é suportada."]
  | .unsupportedShape, .english => [.text "The expression is not supported."]
  | .missingRoot, .portuguese =>
    [.text "Não foi possível determinar a raiz do fator '", .place "factor", .text "'."]
  | .missingRoot, .english =>
    [.text "Could not determine the root of the factor '", .place "factor", .text "'."]
  | .numeratorDegree, .portuguese =>
    [.text "O numerador tem grau ", .place "degree", .text "; o grau máximo suportado é 1."]
  | .numeratorDegree, .english =>
    [.text "The numerator has degree ", .place "degree",
      .text "; the highest supported degree is 1."]
  | .symbolicCoefficient, .portuguese =>
    [.text "O coeficiente '", .place "term", .text "' do numerador não é numérico."]
  | .symbolicCoefficient, .english =>
    [.text "The numerator coefficient '", .place "term", .text "' is not numeric."]
  | .repeatedFactor, .portuguese => [.text "Os fatores do denominador são repetidos."]
  | .repeatedFactor, .english => [.text "The denominator factors are repeated."]
  | .unsupportedQuadratic, .portuguese =>
    [.text "O fator quadrático '", .place "factor", .text "' não tem a forma x^2 + k."]
  | .unsupportedQuadratic, .english =>
    [.text "The quadratic factor '", .place "factor", .text "' is not of the form x^2 + k."]
  | .unsupportedType, .portuguese => [.text "Tipo de expressão não suportado."]
  | .unsupportedType, .english => [.text "Unsupported expression type."]

end RefusalCode

inductive Refusal
  | emptyInput
  | tooLong (limit : Int)
  | noFraction
  | badPolynomial (term : String)
  | unsupportedShape
  | missingRoot (factor : String)
  | numeratorDegree (degree : Int)
  | symbolicCoefficient (term : String)
  | repeatedFactor
  | unsupportedQuadratic (factor : String)
  | unsupportedType
  deriving DecidableEq, Repr

namespace Refusal

def code : Refusal → RefusalCode
  | .emptyInput => .emptyInput
  | .tooLong _ => .tooLong
  | .noFraction => .noFraction
  | .badPolynomial _ => .badPolynomial
  | .unsupportedShape => .unsupportedShape
  | .missingRoot _ => .missingRoot
  | .numeratorDegree _ => .numeratorDegree
  | .symbolicCoefficient _ => .symbolicCoefficient
  | .repeatedFactor => .repeatedFactor
  | .unsupportedQuadratic _ => .unsupportedQuadratic
  | .unsupportedType => .unsupportedType

/-- Input that is no fraction is malformed; a fraction that cannot be solved is an unsupported
expression, or of an unsupported type. -/
def kind : Refusal → RefusalKind
  | .emptyInput | .tooLong _ | .noFraction | .badPolynomial _ => .malformedInput
  | .unsupportedType => .unsupportedType
  | _ => .unsupportedExpression

def details : Refusal → Wording.Details
  | .tooLong limit, "limit" => some (toString limit)
  | .badPolynomial term, "term" => some term
  | .missingRoot factor, "factor" => some factor
  | .numeratorDegree degree, "degree" => some (toString degree)
  | .symbolicCoefficient term, "term" => some term
  | .unsupportedQuadratic factor, "factor" => some factor
  | _, _ => none

def message (r : Refusal) (language : Language) : String :=
  (r.code.wording language).fill r.details

end Refusal

structure Notice where
  kind : RefusalKind
  code : String
  message : String
  deriving DecidableEq, Repr

namespace Notice

def defaultCode : RefusalKind → String
  | .general => "PARTIAL_FRACTION_ERROR"
  | .malformedInput => RefusalCode.noFraction.name
  | .unsupportedExpression => RefusalCode.unsupportedShape.name
  | .unsupportedType => RefusalCode.unsupportedType.name

def ofMessage (kind : RefusalKind) (message : String) : Notice := ⟨kind, defaultCode kind, message⟩

/-- The message for a code in words of the language; a code without wording is its own message.
Fails with the name of the first detail that is missing. -/
def messageFor (language : Language) (code : String) (details : Wording.Details) :
    Except String String :=
  match RefusalCode.ofName? code with
  | none => .ok code
  | some c =>
    match (c.wording language).missing? details with
    | some name => .error name
    | none => .ok ((c.wording language).fill details)

def ofCode (language : Language) (kind : RefusalKind) (code : String) (details : Wording.Details) :
    Except String Notice := do
  let message ← messageFor language code details
  return ⟨kind, if code = "" then defaultCode kind else code, message⟩

end Notice

def Refusal.notice (r : Refusal) (language : Language) : Notice :=
  ⟨r.kind, r.code.name, r.message language⟩

end PartialFractions
