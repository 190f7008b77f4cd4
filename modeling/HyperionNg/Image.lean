import HyperionNg.Types

/-! Images as the code holds them: two sizes and an allocated pixel buffer,
read through unsigned indices. A read outside the buffer is a fault. -/

namespace HyperionNg

inductive ImageFault
  | assertionFailed
  | outsideBuffer
  | divisionByZero
deriving DecidableEq, Repr

/-- What builds of the code differ in: whether `assert` is compiled in, and
the width of `uint_fast16_t`, of which only the lower bound is standard. -/
structure Build where
  asserts : Bool
  fastBits : Nat
  fastBits_ge : 16 ≤ fastBits

/-- `assert(condition)` -/
def Build.assert (build : Build) (condition : Bool) : Except ImageFault Unit :=
  if build.asserts && !condition then .error .assertionFailed else .ok ()

/-- A value reduced to `unsigned`. -/
def unsigned (value : Int) : Nat := (value % 2 ^ 32).toNat

/-- A value reduced to `int`. -/
def signed (value : Int) : Int := value.bmod (2 ^ 32)

theorem unsigned_lt (value : Int) : unsigned value < 2 ^ 32 := by
  have below := Int.emod_lt_of_pos value (by decide : (0 : Int) < 2 ^ 32)
  have above := Int.emod_nonneg value (by decide : (2 ^ 32 : Int) ≠ 0)
  unfold unsigned
  omega

theorem unsigned_of_lt {value : Nat} (lt : value < 2 ^ 32) : unsigned value = value := by
  have same : (value : Int) % 2 ^ 32 = value := Int.emod_eq_of_lt (by omega) (by omega)
  rw [unsigned, same, Int.toNat_natCast]

theorem unsigned_signed (value : Int) : unsigned (signed value) = unsigned value := by
  have same : value.bmod (2 ^ 32) % ((2 ^ 32 : Nat) : Int) = value % ((2 ^ 32 : Nat) : Int) :=
    Int.bmod_emod
  unfold unsigned signed
  exact congrArg Int.toNat same

theorem Build.assert_of {build : Build} {condition : Bool} (h : condition = true) :
    build.assert condition = .ok () := by
  simp [Build.assert, h]

/-- The template parameter `Pixel_T`: three channels that can take any value. -/
class Pixel (α : Type) where
  red : α → UInt8
  green : α → UInt8
  blue : α → UInt8
  ofRgb : UInt8 → UInt8 → UInt8 → α
  red_ofRgb : ∀ r g b, red (ofRgb r g b) = r
  green_ofRgb : ∀ r g b, green (ofRgb r g b) = g
  blue_ofRgb : ∀ r g b, blue (ofRgb r g b) = b

instance : Pixel ColorRgb where
  red := ColorRgb.red
  green := ColorRgb.green
  blue := ColorRgb.blue
  ofRgb := ColorRgb.mk
  red_ofRgb _ _ _ := rfl
  green_ofRgb _ _ _ := rfl
  blue_ofRgb _ _ _ := rfl

attribute [simp] Pixel.red_ofRgb Pixel.green_ofRgb Pixel.blue_ofRgb

def Channel.ofPixel {α : Type} [Pixel α] : Channel → α → UInt8
  | .red => Pixel.red
  | .green => Pixel.green
  | .blue => Pixel.blue

structure Image (α : Type) where
  width : Nat
  height : Nat
  pixels : List α

namespace Image

variable {α : Type}

/-- The constructor for a size: one spare pixel behind the picture, all zero. -/
def ofSize [Pixel α] (width height : Nat) : Image α :=
  ⟨width, height, List.replicate (unsigned (width * height + 1 : Nat)) (Pixel.ofRgb 0 0 0)⟩

def toIndex (image : Image α) (x y : Nat) : Nat := unsigned (y * image.width + x : Nat)

/-- `memptr()[index]` -/
def read (image : Image α) (index : Nat) : Except ImageFault α :=
  match image.pixels[index]? with
  | some pixel => .ok pixel
  | none => .error .outsideBuffer

/-- `image(x, y)` -/
def pixel (image : Image α) (x y : Nat) : Except ImageFault α := image.read (image.toIndex x y)

/-- A picture with at least one pixel, whose buffer is as large as the
constructor computes it without a wrap. -/
structure Complete (image : Image α) : Prop where
  width_pos : 0 < image.width
  height_pos : 0 < image.height
  size_lt : image.width * image.height + 1 < 2 ^ 32
  length_eq : image.pixels.length = image.width * image.height + 1

private theorem read_of_lt {image : Image α} {index : Nat} (lt : index < image.pixels.length) :
    image.read index = .ok (image.pixels[index]) := by
  rw [read, List.getElem?_eq_getElem lt]

theorem exists_read (image : Image α) {index : Nat} (lt : index < image.pixels.length) :
    ∃ pixel, image.read index = .ok pixel := ⟨_, read_of_lt lt⟩

theorem index_lt {width height x y : Nat} (hx : x < width) (hy : y < height) :
    y * width + x < width * height := by
  have row : (y + 1) * width ≤ height * width := Nat.mul_le_mul_right width hy
  have bound : (y + 1) * width = y * width + width := Nat.succ_mul y width
  have comm := Nat.mul_comm width height
  omega

theorem index_div {width x : Nat} (hx : x < width) (y : Nat) : (y * width + x) / width = y := by
  rw [Nat.mul_comm, Nat.mul_add_div (by omega), Nat.div_eq_of_lt hx, Nat.add_zero]

theorem Complete.exists_pixel {image : Image α} (complete : image.Complete) {x y : Nat}
    (hx : x < image.width) (hy : y < image.height) : ∃ pixel, image.pixel x y = .ok pixel := by
  have inside := index_lt hx hy
  have size := complete.size_lt
  have length := complete.length_eq
  rw [pixel, toIndex, unsigned_of_lt (by omega)]
  exact image.exists_read (by omega)

theorem Complete.width_lt {image : Image α} (complete : image.Complete) :
    image.width < 2 ^ 32 := by
  have size := complete.size_lt
  have grow := Nat.le_mul_of_pos_right image.width complete.height_pos
  omega

theorem Complete.height_lt {image : Image α} (complete : image.Complete) :
    image.height < 2 ^ 32 := by
  have size := complete.size_lt
  have grow := Nat.le_mul_of_pos_left image.height complete.width_pos
  omega

/-- The picture that shows `color x y` at every position. -/
def ofColors [Pixel α] (width height : Nat) (color : Nat → Nat → α) : Image α :=
  ⟨width, height, (List.range (width * height)).map (fun i => color (i % width) (i / width)) ++
    [Pixel.ofRgb 0 0 0]⟩

theorem ofColors_complete [Pixel α] {width height : Nat} (color : Nat → Nat → α)
    (hw : 0 < width) (hh : 0 < height) (size : width * height + 1 < 2 ^ 32) :
    (ofColors width height color).Complete where
  width_pos := hw
  height_pos := hh
  size_lt := size
  length_eq := by simp [ofColors]

theorem ofColors_pixel [Pixel α] {width height x y : Nat} (color : Nat → Nat → α)
    (size : width * height < 2 ^ 32) (hx : x < width) (hy : y < height) :
    (ofColors width height color).pixel x y = .ok (color x y) := by
  have inside := index_lt hx hy
  have index : (ofColors width height color).toIndex x y = y * width + x :=
    unsigned_of_lt (show y * width + x < 2 ^ 32 by omega)
  have column : (y * width + x) % width = x := Nat.mul_add_mod_of_lt hx
  have row : (y * width + x) / width = y := index_div hx y
  have found : (ofColors width height color).pixels[y * width + x]? = some (color x y) := by
    simp [ofColors, List.getElem?_append_left, inside, column, row]
  rw [pixel, index, read, found]

end Image

end HyperionNg
