import Mathlib.Tactic

/-! Shared value types: colours, colour orders, component ids, and the ways a
call can fail to return. -/

namespace HyperionNg

structure ColorRgb where
  red : UInt8
  green : UInt8
  blue : UInt8
deriving DecidableEq, Repr

def ColorRgb.black : ColorRgb := ⟨0, 0, 0⟩

/-- The bytes of the colours in memory, as `ledValues.data()` is read. -/
def rawdata (ledValues : List ColorRgb) : List UInt8 :=
  ledValues.flatMap fun color => [color.red, color.green, color.blue]

@[simp] theorem rawdata_length (ledValues : List ColorRgb) :
    (rawdata ledValues).length = 3 * ledValues.length := by
  induction ledValues with
  | nil => rfl
  | cons color rest ih =>
    rw [rawdata, List.flatMap_cons, List.length_append, ← rawdata, ih, List.length_cons]
    simp only [List.length_cons, List.length_nil]
    omega

theorem rawdata_ne_nil {ledValues : List ColorRgb} (some : ledValues ≠ []) :
    rawdata ledValues ≠ [] := by
  have many := List.length_pos_of_ne_nil some
  rw [← List.length_pos_iff, rawdata_length]
  omega

inductive Channel
  | red
  | green
  | blue
deriving DecidableEq, Repr

def Channel.ofColor : Channel → ColorRgb → UInt8
  | .red => ColorRgb.red
  | .green => ColorRgb.green
  | .blue => ColorRgb.blue

inductive ColorOrder
  | rgb
  | rbg
  | grb
  | brg
  | gbr
  | bgr
deriving DecidableEq, Repr

/-- The byte swaps of `Hyperion::update` for one colour. -/
def ColorOrder.correct : ColorOrder → ColorRgb → ColorRgb
  | .rgb, c => c
  | .bgr, c => ⟨c.blue, c.green, c.red⟩
  | .rbg, c => ⟨c.red, c.blue, c.green⟩
  | .grb, c => ⟨c.green, c.red, c.blue⟩
  | .gbr, c => ⟨c.green, c.blue, c.red⟩
  | .brg, c => ⟨c.blue, c.red, c.green⟩

theorem ColorOrder.correct_injective (o : ColorOrder) : Function.Injective o.correct := by
  rintro ⟨r, g, b⟩ ⟨r', g', b'⟩ h
  cases o <;> simp_all [correct]

inductive Components
  | invalid
  | smoothing
  | blackborder
  | kodichecker
  | forwarder
  | udplistener
  | boblightserver
  | grabber
  | v4l
  | color
  | effect
deriving DecidableEq, Repr

/-- `toStdString().c_str()` -/
def cStr (text : String) : List Char := text.toList.takeWhile (· ≠ '\x00')

/-- How a call can leave without returning: the exceptions the code throws,
and the C++ operations that have no defined result. -/
inductive Fault
  /-- `std::runtime_error` of `PriorityMuxer::getInputInfo` -/
  | noSuchPriority
  /-- `std::out_of_range` of `std::vector::at` -/
  | outOfRange
  /-- `std::runtime_error` of the constructor -/
  | adjustmentIncorrectlySet
  /-- a past-the-end iterator, a write outside a buffer, an unrepresentable conversion -/
  | undefinedBehaviour
deriving DecidableEq, Repr

def Fault.isException : Fault → Bool
  | .undefinedBehaviour => false
  | _ => true

end HyperionNg
