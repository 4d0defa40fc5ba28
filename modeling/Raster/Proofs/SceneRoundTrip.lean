import Raster.Proofs.JsonRecord
import Raster.Proofs.ShortestDecimal

/- Scenes read back from what is written of them. Every field but a single precision number
   is read as it was. Such a number is read from its shortest decimal if it is finite
   (`Json.reload`), and written as null if it is not: null is read as no gamma, but as no
   coordinate. So what is read in place of a scene is its `Scene.reload`, if it has one
   (`Scene.ofJson_toJson_eq`), and it has one just if the coordinates of its soft lines
   are finite. -/
namespace Raster

open Decimal (Numeral sceneStyle)

/-- Neither infinite nor without value. -/
def Parts.Finite : Parts → Prop
  | .finite _ _ => True
  | .infinite _ => False
  | .notANumber => False

instance (p : Parts) : Decidable p.Finite := by
  unfold Parts.Finite; split <;> infer_instance

/-- The numeral is written as JSON allows and has a value. -/
def Decimal.Numeral.Sound (n : Numeral) : Prop := n.Readable ∧ n.Modest

theorem Decimal.Numeral.sound_ofInt {v : Int} (hlow : -0x8000000000000000 ≤ v)
    (hhigh : v < 0x8000000000000000) : (Numeral.ofInt v).Sound :=
  ⟨Numeral.ofInt_readable v, Numeral.modest_ofInt hlow hhigh⟩

namespace Json

/-! Fields of a scene. -/

theorem nat_eq (n : Nat) : nat n = int n := congrArg number (Numeral.ofNat_eq n)

theorem asInt?_int {b : Bounds} {v : Int} (hb : b.Holds v) (hlow : -0x8000000000000000 ≤ b.low)
    (hhigh : b.high < 0x8000000000000000) : asInt? b (int v) = some v := by
  have hread := Numeral.int?_ofInt (Int.le_trans hlow hb.1) (Int.lt_of_le_of_lt hb.2 hhigh)
  obtain ⟨n, hn, hv⟩ := Option.bind_eq_some_iff.1 hread
  simp only [asInt?, int, hn, hv, Option.bind_eq_bind, Option.bind_some, if_pos hb]

@[simp] theorem asUInt32?_nat (n : UInt32) : (nat n.toNat).asUInt32? = some n := by
  have hb : Bounds.uint32.Holds n.toNat := by
    have hlt := n.toNat_lt
    exact ⟨by simp [Bounds.uint32], by simp only [Bounds.uint32]; omega⟩
  rw [nat_eq, asUInt32?, asInt?_int hb (by decide) (by decide), Option.map_some, Int.toNat_natCast,
    UInt32.ofNat_toNat]

@[simp] theorem asUInt8?_nat (n : UInt8) : (nat n.toNat).asUInt8? = some n := by
  have hb : (⟨0, 255⟩ : Bounds).Holds n.toNat := by
    have hlt := n.toNat_lt
    exact ⟨by simp, by simp only; omega⟩
  rw [nat_eq, asUInt8?, asInt?_int hb (by decide) (by decide), Option.map_some, Int.toNat_natCast,
    UInt8.ofNat_toNat]

@[simp] theorem asInt32?_int (v : Int32) : (int v.toInt).asInt32? = some v := by
  have hb : Bounds.int32.Holds v.toInt :=
    ⟨v.le_toInt, Int.lt_add_one_iff.1 v.toInt_lt⟩
  rw [asInt32?, asInt?_int hb (by decide) (by decide), Option.map_some, Int32.ofInt_toInt]

@[simp] theorem asPoint?_ofPoint (p : Point) : (ofPoint p).asPoint? = some p := by
  simp [asPoint?, ofPoint, asList?]

@[simp] theorem asRgb?_ofRgb (c : Rgb) : (ofRgb c).asRgb? = some c := by
  simp [asRgb?, ofRgb, asList?]

@[simp] theorem mapM_asPoint? (ps : List Point) : ps.mapM (asPoint? ∘ ofPoint) = some ps := by
  induction ps with
  | nil => rfl
  | cons p ps ih => simp [List.mapM_cons, ih]

@[simp] theorem asText?_text (s : String) : (text s).asText? = some s := rfl

@[simp] theorem asPixelType?_name (t : PixelType) : (text t.name).asPixelType? = some t := by
  cases t <;> decide

/-- What is read in place of a number after it was written. -/
def reload (x : Float32) : Option Float32 := (float x).asFloat32?

theorem reload_isSome_iff (x : Float32) : (reload x).isSome = true ↔ (Parts.ofFloat32 x).Finite := by
  unfold reload float
  cases hx : Parts.ofFloat32 x with
  | notANumber => simp [asFloat32?, Parts.Finite]
  | infinite => simp [asFloat32?, Parts.Finite]
  | finite negative b =>
    have hmodest := Decimal.sceneStyle_modest negative (Parts.single_of_ofFloat32 hx)
    simp [asFloat32?, Parts.Finite, Numeral.number?_isSome hmodest]

theorem all_int {v : Int} (hlow : -0x8000000000000000 ≤ v) (hhigh : v < 0x8000000000000000) :
    (int v).All Numeral.Sound := Numeral.sound_ofInt hlow hhigh

theorem all_nat {n : Nat} (hn : n < 2 ^ 32) : (nat n).All Numeral.Sound := by
  rw [nat_eq]
  exact all_int (by omega) (by omega)

@[simp] theorem all_int32 (v : Int32) : (int v.toInt).All Numeral.Sound :=
  all_int (Int.le_trans (by decide) v.le_toInt) (Int.lt_trans v.toInt_lt (by decide))

@[simp] theorem all_uint32 (n : UInt32) : (nat n.toNat).All Numeral.Sound := all_nat n.toNat_lt

@[simp] theorem all_uint8 (n : UInt8) : (nat n.toNat).All Numeral.Sound :=
  all_nat (Nat.lt_trans n.toNat_lt (by decide))

@[simp] theorem all_ofPoint (p : Point) : (ofPoint p).All Numeral.Sound := by
  simp [ofPoint]

@[simp] theorem all_ofRgb (c : Rgb) : (ofRgb c).All Numeral.Sound := by
  simp [ofRgb]

@[simp] theorem all_float (x : Float32) : (float x).All Numeral.Sound := by
  unfold float
  split
  · rename_i negative b hx
    have hb := Parts.single_of_ofFloat32 hx
    exact ⟨Decimal.sceneStyle_readable negative hb, Decimal.sceneStyle_modest negative hb⟩
  · trivial

@[simp] theorem all_text (s : String) : (text s).All Numeral.Sound := rfl

@[simp] theorem all_bool (b : Bool) : (bool b).All Numeral.Sound := trivial

@[simp] theorem depth_float (x : Float32) : (float x).depth = 0 := by
  unfold float
  split <;> rfl

end Json

/-! Shapes. -/

namespace Shape
open Json

theorem encode_all (s : Shape) : s.encode.All Numeral.Sound := by
  unfold encode
  cases s <;> simp [fields]

theorem encode_depth_le (s : Shape) : s.encode.depth ≤ 3 := by
  have hpoints : ∀ ps : List Point, depthOfItems (ps.map ofPoint) ≤ 1 := by
    intro ps
    refine depthOfItems_le ?_
    simp [ofPoint, depth, depthOfItems, int]
  refine depth_record_le ?_
  cases s <;> simp [fields, hpoints, ofPoint, ofRgb, text, depth, depthOfItems, int, nat]

theorem encode_isSound (s : Shape) : s.encode.isSound = true :=
  isSound_of_all (All.mono (fun _ h => h.2) _ s.encode_all)
    (Nat.le_trans s.encode_depth_le (by decide))

theorem fields_nodup (s : Shape) : ("shape" :: s.fields.2.map Prod.fst).Nodup := by
  cases s <;> simp [fields]

theorem arrange?_encode (s : Shape) :
    arrange? (s.fields.2.map Prod.fst) s.encode = some ((s.fields.2.map Prod.snd).map some) := by
  have harrange := arrange?_record [("shape", text s.fields.1)] (s.fields.2.map Prod.fst)
    (s.fields.2.map Prod.snd) (by simp) s.fields_nodup
  rw [← List.zip_of_prod rfl rfl] at harrange
  exact harrange

/-- All fields of a shape are read by their names. -/
theorem all?_encode (s : Shape) :
    all? (s.fields.2.map Prod.fst) s.encode = some (s.fields.2.map Prod.snd) := by
  have hpresent : ∀ values : List Json, (values.map some).mapM id = some values := by
    intro values
    induction values with
    | nil => rfl
    | cons v vs ih => simp [List.mapM_cons, ih]
  rw [all?, arrange?_encode]
  exact hpresent _

theorem split?_encode (s : Shape) : split? s.encode = some (s.fields.1, s.encode) := by
  have htag := only?_record (("shape", text s.fields.1) :: s.fields.2) s.fields_nodup
    List.mem_cons_self
  show (do let tag ← (← (← only? "shape" _)).asText?; return (tag, s.encode)) = _
  rw [htag]
  rfl

/-! The readers. -/

section Readers
variable {v : Json} {p q : Point} {c : Rgb}

theorem twoPoints?_eq {make : Point → Point → Rgb → Shape}
    (h : all? ["from", "to", "color"] v = some [ofPoint p, ofPoint q, ofRgb c]) :
    twoPoints? make v = some (make p q c) := by
  simp [twoPoints?, h]

theorem round?_eq {make : Point → Int32 → Rgb → Shape} {r : Int32}
    (h : all? ["center", "radius", "color"] v = some [ofPoint p, int r.toInt, ofRgb c]) :
    round? make v = some (make p r c) := by
  simp [round?, h]

theorem oval?_eq {make : Point → UInt32 → UInt32 → Rgb → Shape} {a b : UInt32}
    (h : all? ["center", "a", "b", "color"] v =
      some [ofPoint p, nat a.toNat, nat b.toNat, ofRgb c]) :
    oval? make v = some (make p a b c) := by
  simp [oval?, h]

theorem corners?_eq (ps : List Point) {fill : Bool}
    (h : arrange? ["points", "fill", "color"] v =
      some [some (array (ps.map ofPoint)), some (bool fill), some (ofRgb c)]) :
    corners? v = some (ps, fill, c) := by
  simp [corners?, h, asList?, orElse?, asBool?]

end Readers

/-- What is read in place of a shape after it was written. -/
def reload : Shape → Option Shape
  | softLine x0 y0 x1 y1 c => do
    return softLine (← Json.reload x0) (← Json.reload y0) (← Json.reload x1) (← Json.reload y1) c
  | s => some s

theorem reload_of_ne {s : Shape} (hs : ∀ x0 y0 x1 y1 c, s ≠ softLine x0 y0 x1 y1 c) :
    s.reload = some s := by
  cases s with
  | softLine x0 y0 x1 y1 c => exact absurd rfl (hs x0 y0 x1 y1 c)
  | _ => rfl

theorem decode?_encode (s : Shape) : decode? s.encode = s.reload := by
  unfold decode?
  rw [if_pos s.encode_isSound, split?_encode]
  have hall := all?_encode s
  cases s with
  | line p q c => exact twoPoints?_eq hall
  | thickLine p q r c =>
    show thickLine? (encode (thickLine p q r c)) = _
    change all? ["from", "to", "radius", "color"] _ = _ at hall
    simp [thickLine?, hall, fields, reload]
  | rect p q c => exact twoPoints?_eq hall
  | fillRect p q c => exact twoPoints?_eq hall
  | circle p r c => exact round?_eq hall
  | fillCircle p r c => exact round?_eq hall
  | circleSegments p r n c =>
    show circleSegments? (encode (circleSegments p r n c)) = _
    change all? ["center", "radius", "segments", "color"] _ = _ at hall
    simp [circleSegments?, hall, fields, reload]
  | ellipse p a b c => exact oval?_eq hall
  | fillEllipse p a b c => exact oval?_eq hall
  | triangle p q r fill c =>
    have hcorners := corners?_eq [p, q, r] (arrange?_encode (triangle p q r fill c))
    show triangle? (encode (triangle p q r fill c)) = _
    simp [triangle?, hcorners, reload]
  | polygon ps fill c =>
    have hcorners := corners?_eq ps (arrange?_encode (polygon ps fill c))
    show polygon? (encode (polygon ps fill c)) = _
    simp [polygon?, hcorners, reload]
  | softLine x0 y0 x1 y1 c =>
    show softLine? (encode (softLine x0 y0 x1 y1 c)) = _
    change all? ["from", "to", "color"] _ = _ at hall
    simp [softLine?, hall, fields, reload, asPosition?, asList?, Json.reload, Option.bind_assoc]
  | checker p size cell even odd =>
    show checker? (encode (checker p size cell even odd)) = _
    change all? ["at", "size", "cell", "colors"] _ = _ at hall
    simp [checker?, hall, fields, reload, asList?]

/-- No coordinate of the shape is infinite or without value. -/
def Finite : Shape → Prop
  | softLine x0 y0 x1 y1 _ =>
    (Parts.ofFloat32 x0).Finite ∧ (Parts.ofFloat32 y0).Finite ∧ (Parts.ofFloat32 x1).Finite ∧
      (Parts.ofFloat32 y1).Finite
  | _ => True

instance (s : Shape) : Decidable s.Finite := by
  unfold Finite; split <;> infer_instance

theorem reload_isSome_iff (s : Shape) : s.reload.isSome = true ↔ s.Finite := by
  cases s with
  | softLine x0 y0 x1 y1 c =>
    simp only [reload, Finite, ← Json.reload_isSome_iff]
    cases Json.reload x0 <;> cases Json.reload y0 <;> cases Json.reload x1 <;>
      cases Json.reload y1 <;> simp
  | _ => simp [reload, Finite]

end Shape

/-! Scenes. -/

namespace Scene
open Json

theorem encode_all (s : Scene) : s.encode.All Numeral.Sound := by
  have hgamma : ((s.gamma.map Json.float).getD .null).All Numeral.Sound := by
    cases s.gamma with
    | none => trivial
    | some x => exact all_float x
  unfold encode
  simp [hgamma, Shape.encode_all]

theorem arrange?_encode (s : Scene) : arrange? fieldNames s.encode = some [
    some (text s.name), some (nat s.width.toNat), some (nat s.height.toNat),
    some (text s.pixelType.name), some (ofRgb s.background),
    some ((s.gamma.map Json.float).getD .null), some (array (s.shapes.map Shape.encode))] :=
  arrange?_record [] fieldNames [text s.name, nat s.width.toNat, nat s.height.toNat,
    text s.pixelType.name, ofRgb s.background, (s.gamma.map Json.float).getD .null,
    array (s.shapes.map Shape.encode)] rfl (by decide)

/-- A gamma that is not finite is read as none. -/
theorem orNull_gamma (g : Option Float32) :
    orNull asFloat32? ((g.map Json.float).getD .null) = some (g.bind Json.reload) := by
  cases g with
  | none => rfl
  | some x =>
    have hread := Json.reload_isSome_iff x
    show orNull asFloat32? (Json.float x) = some (Json.reload x)
    unfold Json.reload at hread ⊢
    unfold Json.float at hread ⊢
    cases hx : Parts.ofFloat32 x with
    | notANumber => rfl
    | infinite => rfl
    | finite negative b =>
      rw [hx] at hread
      obtain ⟨y, hy⟩ := Option.isSome_iff_exists.1 (hread.2 trivial)
      simp only [orNull, hy, Option.map_some]

/-- What is read in place of a scene after it was written. -/
def reload (s : Scene) : Option Scene :=
  (s.shapes.mapM Shape.reload).map fun shapes =>
    { s with gamma := s.gamma.bind Json.reload, shapes := shapes }

theorem decode?_encode (s : Scene) : decode? s.encode = s.reload := by
  have hnames : namesAreTexts s.encode = true := rfl
  have hshapes : Shape.decode? ∘ Shape.encode = Shape.reload := funext Shape.decode?_encode
  unfold decode?
  rw [arrange?_encode, hnames, reload]
  cases hread : s.shapes.mapM Shape.reload <;>
    simp [orElse?, orNull_gamma, asList?, hshapes, hread]

/-- A scene is read from its text as what each of its fields is read as. -/
theorem ofJson_toJson_eq (s : Scene) :
    ofJson s.toJson = match s.reload with
      | some t => .ok t
      | none => .error .malformedScene := by
  have hparse := parse_print (All.mono (fun _ h => h.1) _ s.encode_all)
  have hread : (parse s.toJson.toList).bind decode? = s.reload := by
    rw [toJson, pretty, String.toList_ofList, hparse, Option.bind_some, decode?_encode]
  cases hs : s.reload <;> simp only [ofJson, hread, hs]

/-- No coordinate of a shape is infinite or without value. -/
def Finite (s : Scene) : Prop := ∀ x ∈ s.shapes, x.Finite

instance (s : Scene) : Decidable s.Finite := inferInstanceAs (Decidable (∀ x ∈ s.shapes, _))

theorem reload_isSome_iff (s : Scene) : s.reload.isSome = true ↔ s.Finite := by
  have hshapes : ∀ xs : List Shape, (xs.mapM Shape.reload).isSome = true ↔ ∀ x ∈ xs, x.Finite := by
    intro xs
    induction xs with
    | nil => simp
    | cons x xs ih =>
      rw [List.forall_mem_cons, ← ih, ← x.reload_isSome_iff, List.mapM_cons]
      cases x.reload <;> cases xs.mapM Shape.reload <;> simp
  rw [reload, Option.isSome_map]
  exact hshapes s.shapes

/-- The text of a scene is accepted exactly if every coordinate of its soft lines is finite. -/
theorem toJson_accepted_iff (s : Scene) : (∃ t, ofJson s.toJson = .ok t) ↔ s.Finite := by
  rw [← reload_isSome_iff, Option.isSome_iff_exists, ofJson_toJson_eq]
  cases s.reload <;> simp

/-- A coordinate beyond single precision is read as infinite, so that the text of a scene that was
read need not be accepted. -/
theorem toJson_refused_beyond : ∃ s,
    ofJson ("\x7b\"width\":1,\"height\":1,\"shapes\":[\x7b\"shape\":\"aa_line\"," ++
      "\"from\":[1e39,0],\"to\":[1,1],\"color\":[0,0,0]\x7d]\x7d") = .ok s ∧
    ¬ ∃ t, ofJson s.toJson = .ok t := by
  refine ⟨⟨"untitled", 1, 1, .rgb888, ⟨0, 0, 0⟩, none,
    [.softLine (.ofBits 0x7f800000) 0 1 1 ⟨0, 0, 0⟩]⟩, by decide +kernel, ?_⟩
  rw [toJson_accepted_iff]
  decide +kernel

/-- A scene without soft lines and without a gamma is read from its text as it was. -/
theorem ofJson_toJson {s : Scene} (hg : s.gamma = none)
    (hs : ∀ x ∈ s.shapes, ∀ x0 y0 x1 y1 c, x ≠ .softLine x0 y0 x1 y1 c) :
    ofJson s.toJson = .ok s := by
  have hshapes : ∀ xs : List Shape, (∀ x ∈ xs, ∀ x0 y0 x1 y1 c, x ≠ .softLine x0 y0 x1 y1 c) →
      xs.mapM Shape.reload = some xs := by
    intro xs hxs
    induction xs with
    | nil => rfl
    | cons x xs ih =>
      rw [List.forall_mem_cons] at hxs
      rw [List.mapM_cons, Shape.reload_of_ne hxs.1, ih hxs.2]
      rfl
  have hreload : s.reload = some s := by
    rw [reload, hshapes s.shapes hs, hg]
    obtain ⟨name, width, height, type, background, gamma, shapes⟩ := s
    cases hg
    rfl
  rw [ofJson_toJson_eq, hreload]

theorem ofJson_toJson_escaped :
    let s : Scene := ⟨"\x00\t\"\\/\x1f é", 0, 4294967295, .g1ub, ⟨255, 0, 7⟩, none,
      [.polygon [] true ⟨1, 2, 3⟩, .circle ⟨-2147483648, 2147483647⟩ (-1) ⟨0, 0, 0⟩]⟩
    ofJson s.toJson = .ok s :=
  ofJson_toJson rfl (by simp)

end Scene

end Raster
