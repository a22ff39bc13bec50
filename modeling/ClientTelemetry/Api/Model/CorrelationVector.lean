import ClientTelemetry.Common.Run
import ClientTelemetry.Utils.StringUtils
/-!
# Correlation vectors

`CorrelationVector` is a vector clock kept as a text: a base of random
characters, then groups of decimal digits, each behind a dot. The last
group is a counter (`increment`); a vector is extended by a new counter
behind the present value (`extend`). The base tells the version and so
how long a value may become. One character less than the format allows is
used, which leaves room for the `!` of a sealed value.
-/

namespace ClientTelemetry

namespace CorrelationVector

def maxCVLengthV1 : ℕ := 63

def baseCVLengthV1 : ℕ := 16

def maxCVLengthV2 : ℕ := 127

def baseCVLengthV2 : ℕ := 22

def base64CharSet : String := "ABCDEFGHIJKLMNOPQRSTUVWXYZabcdefghijklmnopqrstuvwxyz0123456789+/"

def base10CharSet : String := "0123456789"

def maxVectorElementValue : String := "4294967295"

/-- `std::numeric_limits<unsigned int>::max()`. -/
def unsignedMax : ℕ := 2 ^ 32 - 1

end CorrelationVector

/-- **The state of a correlation vector.** -/
structure CorrelationVector where
  isInitialized : Bool := false
  baseVector : String := ""
  currentVector : ℕ := 0
  maxLength : ℕ := 0
  deriving DecidableEq, Repr

namespace CorrelationVector

/-- The loop of `GetDigitCount`; a number has no more digits than its own
value, so that many turns are enough. -/
def countDigits : ℕ → ℕ → ℕ → ℕ
  | 0, _, digitCount => digitCount
  | turns + 1, value, digitCount =>
    if value > 9 then countDigits turns (value / 10) (digitCount + 1) else digitCount

/-- `GetDigitCount`. -/
def getDigitCount (value : ℕ) : ℕ := countDigits value value 1

/-- `InitializeInternal`, with the numbers that are drawn. -/
def initializeInternal (draw : ℕ → Fin 64) (baseLength : ℕ) : String :=
  String.ofList ((List.range baseLength).map fun i => base64CharSet.toList.getD (draw i) 'A')

variable (v : CorrelationVector)

/-- `Initialize`, with the numbers that are drawn. -/
def initializeWith (draw : ℕ → Fin 64) (version : ℤ) : Bool × CorrelationVector :=
  if version ≠ 1 ∧ version ≠ 2 then (false, v)
  else
    let baseLength := if version = 1 then baseCVLengthV1 else baseCVLengthV2
    (true,
      { isInitialized := true
        baseVector := initializeInternal draw baseLength
        currentVector := 0
        maxLength := if version = 1 then maxCVLengthV1 else maxCVLengthV2 })

/-- `Uninitialize`. -/
def uninit : CorrelationVector :=
  { v with isInitialized := false, baseVector := "", currentVector := 0 }

/-- `GetValue`. -/
def getValue : String :=
  if v.isInitialized then v.baseVector ++ "." ++ toString v.currentVector else ""

/-- `GetLengthInternal`. -/
def getLengthInternal (vectorValue : ℕ) : ℕ :=
  v.baseVector.length + 1 + getDigitCount vectorValue

/-- `CanExtend`: extending is appending `.0`. -/
def canExtend : Bool :=
  v.isInitialized && decide (v.getLengthInternal v.currentVector + 2 ≤ v.maxLength)

/-- `CanIncrement`. -/
def canIncrement : Bool :=
  v.isInitialized && !(v.currentVector == unsignedMax) &&
    decide (v.getLengthInternal (v.currentVector + 1) ≤ v.maxLength)

/-- `Extend`. -/
def extend : Bool × CorrelationVector :=
  if v.canExtend then (true, { v with baseVector := v.getValue, currentVector := 0 }) else (false, v)

/-- `Increment`. -/
def increment : Bool × CorrelationVector :=
  if v.canIncrement then (true, { v with currentVector := v.currentVector + 1 }) else (false, v)

/-- `GetNextValue`: the value before the counter is raised, if it can be. -/
def getNextValue : String × CorrelationVector := (v.getValue, v.increment.2)

/-- The first group must be a base64 string of a certain length, which
tells the maximum. -/
def firstLimit (part : String) : Option ℕ :=
  if part.length = baseCVLengthV1 ∧ areAllCharactersWhitelisted part base64CharSet then
    some maxCVLengthV1
  else if part.length = baseCVLengthV2 ∧ areAllCharactersWhitelisted part base64CharSet then
    some maxCVLengthV2
  else none

/-- All other groups must be decimal digits, at least one. -/
def isElement (part : String) : Bool :=
  !(part.length == 0) && areAllCharactersWhitelisted part base10CharSet

/-- The maximum length, if the groups are well formed. -/
def partsLimit : List String → Option ℕ
  | [] => none
  | first :: rest => if rest.all isElement then firstLimit first else none

/-- The counter a last group stands for. It is compared as a text before
it is read. -/
def parseElement (w : LongWidth) (vectorString : String) : Option ℕ :=
  if vectorString.length = 0 ∨ vectorString.length > maxVectorElementValue.length ∨
      vectorString.length = maxVectorElementValue.length ∧
        maxVectorElementValue.toList < vectorString.toList then none
  else
    match stoul w vectorString with
    | .error _ => none
    | .ok currentVector => if currentVector > unsignedMax then none else some currentVector

/-- `cv.substr(lastDot + 1)`. -/
def afterLastDot (cv : String) : String := String.ofList (cv.toList.rtakeWhile (· ≠ '.'))

/-- `cv.substr(0, lastDot)`. -/
def beforeLastDot (cv : String) : String :=
  String.ofList (cv.toList.rdropWhile (· ≠ '.')).dropLast

/-- `SetValue`. -/
def setValue (w : LongWidth) (cv : String) : Bool × CorrelationVector :=
  let parts := splitString cv '.'
  match partsLimit parts with
  | none => (false, v)
  | some maxLength =>
    if cv.length > maxLength then (false, v)
    else
      match parts with
      | [base] => (true, ⟨true, base, 0, maxLength⟩)
      | _ =>
        match parseElement w (afterLastDot cv) with
        | none => (false, v)
        | some currentVector => (true, ⟨true, beforeLastDot cv, currentVector, maxLength⟩)

end CorrelationVector

/-! ## Calls -/

/-- A call, with what is drawn for a random base. -/
inductive CvCall where
  | initializeWith (draw : ℕ → Fin 64) (version : ℤ)
  | setValue (cv : String)
  | extend
  | increment
  | getValue
  | getNextValue
  | uninit

/-- **A correlation vector in use.** -/
structure CvRun where
  cv : CorrelationVector
  /-- The values returned since a base was last set. -/
  returned : List String

namespace CvRun

/-- A new object. -/
def initial : CvRun := ⟨{}, []⟩

/-- One call. -/
def step (w : LongWidth) (s : CvRun) : CvCall → CvRun
  | .initializeWith draw version =>
    let result := s.cv.initializeWith draw version
    ⟨result.2, if result.1 then [] else s.returned⟩
  | .setValue cv =>
    let result := s.cv.setValue w cv
    ⟨result.2, if result.1 then [] else s.returned⟩
  | .extend => ⟨s.cv.extend.2, s.returned⟩
  | .increment => ⟨s.cv.increment.2, s.returned⟩
  | .getValue => ⟨s.cv, s.cv.getValue :: s.returned⟩
  | .getNextValue => ⟨s.cv.getNextValue.2, s.cv.getNextValue.1 :: s.returned⟩
  | .uninit => ⟨s.cv.uninit, s.returned⟩

end CvRun

end ClientTelemetry
