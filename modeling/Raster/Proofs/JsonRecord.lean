import Raster.Proofs.JsonRoundTrip
import Raster.Proofs.NumberSize
import Raster.Scene.Decode

/- Values that are written and read by their fields. `All` and `depth` of arrays and records
   are told from their items and fields; a value whose numerals are all modest is sound if
   it is not nested too deeply (`isSound_of_all`). A record in which no name comes twice
   gives the values of its fields in the order of their names (`arrange?_record`). -/
namespace Raster.Json

open Decimal (Numeral)

/-! Items and fields. -/

theorem allItems_iff {p : Numeral → Prop} {xs : List Json} :
    AllItems p xs ↔ ∀ x ∈ xs, x.All p := by
  induction xs with
  | nil => simp [AllItems]
  | cons x xs ih => rw [AllItems, ih, List.forall_mem_cons]

@[simp] theorem all_array {p : Numeral → Prop} {xs : List Json} :
    (array xs).All p ↔ ∀ x ∈ xs, x.All p := allItems_iff

@[simp] theorem all_record {p : Numeral → Prop} {fields : List (String × Json)} :
    (record fields).All p ↔ ∀ f ∈ fields, f.2.All p := by
  show AllFields p (fields.map _) ↔ _
  induction fields with
  | nil => simp [AllFields]
  | cons f fields ih =>
    rw [List.map_cons, AllFields, ih, List.forall_mem_cons]
    exact and_iff_right rfl

theorem depthOfItems_le {k : Nat} {xs : List Json} (h : ∀ x ∈ xs, x.depth ≤ k) :
    depthOfItems xs ≤ k := by
  induction xs with
  | nil => exact Nat.zero_le k
  | cons x xs ih =>
    rw [List.forall_mem_cons] at h
    exact Nat.max_le.2 ⟨h.1, ih h.2⟩

theorem depth_record_le {k : Nat} {fields : List (String × Json)} (h : ∀ f ∈ fields, f.2.depth ≤ k) :
    (record fields).depth ≤ k + 1 := by
  show depthOfFields (fields.map _) + 1 ≤ k + 1
  refine Nat.succ_le_succ ?_
  induction fields with
  | nil => exact Nat.zero_le k
  | cons f fields ih =>
    rw [List.forall_mem_cons] at h
    exact Nat.max_le.2 ⟨h.1, ih h.2⟩

mutual

theorem All.mono {p q : Numeral → Prop} (h : ∀ n, p n → q n) : ∀ v : Json, v.All p → v.All q
  | null, _ => trivial
  | bool _, _ => trivial
  | number n, hv => h n hv
  | string _, hv => hv
  | array items, hv => AllItems.mono h items hv
  | object fields, hv => AllFields.mono h fields hv

theorem AllItems.mono {p q : Numeral → Prop} (h : ∀ n, p n → q n) :
    ∀ xs : List Json, AllItems p xs → AllItems q xs
  | [], _ => trivial
  | x :: xs, hv => ⟨All.mono h x hv.1, AllItems.mono h xs hv.2⟩

theorem AllFields.mono {p q : Numeral → Prop} (h : ∀ n, p n → q n) :
    ∀ xs : List (Option String × Json), AllFields p xs → AllFields q xs
  | [], _ => trivial
  | (_, x) :: xs, hv => ⟨hv.1, All.mono h x hv.2.1, AllFields.mono h xs hv.2.2⟩

end

mutual

theorem isMeaningful_of_all : ∀ v : Json, v.All Numeral.Modest → v.isMeaningful = true
  | null, _ => rfl
  | bool _, _ => rfl
  | number _, hv => Numeral.number?_isSome hv
  | string _, hv => hv
  | array items, hv => areMeaningful_of_all items hv
  | object fields, hv => haveMeaning_of_all fields hv

theorem areMeaningful_of_all : ∀ xs : List Json, AllItems Numeral.Modest xs → areMeaningful xs = true
  | [], _ => rfl
  | x :: xs, hv => by
    rw [areMeaningful, isMeaningful_of_all x hv.1, areMeaningful_of_all xs hv.2]
    rfl

theorem haveMeaning_of_all : ∀ xs : List (Option String × Json),
    AllFields Numeral.Modest xs → haveMeaning xs = true
  | [], _ => rfl
  | (k, x) :: xs, hv => by
    rw [haveMeaning, hv.1, isMeaningful_of_all x hv.2.1, haveMeaning_of_all xs hv.2.2]
    rfl

end

theorem isSound_of_all {v : Json} (hv : v.All Numeral.Modest) (hd : v.depth ≤ 125) :
    v.isSound = true := by
  rw [isSound, isMeaningful_of_all v hv, decide_eq_true hd]
  rfl

/-! Fields by name. -/

theorem named_of_notMem {fields : List (String × Json)} {k : String}
    (h : k ∉ fields.map Prod.fst) : named k (fields.map fun (k, v) => (some k, v)) = [] := by
  induction fields with
  | nil => rfl
  | cons f fields ih =>
    rw [List.map_cons, List.mem_cons, not_or] at h
    have hne : some f.1 ≠ some k := fun heq => h.1 (Option.some.inj heq).symm
    simp only [named, List.map_cons, List.filterMap_cons, if_neg hne]
    exact ih h.2

/-- A field whose name comes once is found. -/
theorem only?_record (fields : List (String × Json)) (hn : (fields.map Prod.fst).Nodup) {k : String}
    {v : Json} (h : (k, v) ∈ fields) :
    only? k (fields.map fun (k, v) => (some k, v)) = some (some v) := by
  have hnamed : named k (fields.map fun (k, v) => (some k, v)) = [v] := by
    induction fields with
    | nil => cases h
    | cons f fields ih =>
      rw [List.map_cons, List.nodup_cons] at hn
      rcases List.mem_cons.1 h with rfl | h
      · have hrest := named_of_notMem hn.1
        simp only [named, List.map_cons, List.filterMap_cons, if_true] at hrest ⊢
        rw [hrest]
      · have hmem : k ∈ fields.map Prod.fst := List.mem_map_of_mem h
        have hne : some f.1 ≠ some k := fun heq => hn.1 (Option.some.inj heq ▸ hmem)
        simp only [named, List.map_cons, List.filterMap_cons, if_neg hne]
        exact ih hn.2 h
  rw [only?, hnamed]

theorem mapM_zip {α β : Type} {f : α → Option β} {xs : List α} {ys : List β}
    (hlen : xs.length = ys.length) (h : ∀ p ∈ xs.zip ys, f p.1 = some p.2) :
    xs.mapM f = some ys := by
  induction xs generalizing ys with
  | nil =>
    obtain rfl := List.eq_nil_of_length_eq_zero hlen.symm
    rfl
  | cons x xs ih =>
    obtain ⟨y, ys, rfl⟩ := List.exists_cons_of_length_eq_add_one hlen.symm
    rw [List.zip_cons_cons, List.forall_mem_cons] at h
    rw [List.mapM_cons, h.1, ih (Nat.succ.inj hlen) h.2]
    rfl

/-- The values of a record behind some other fields. -/
theorem arrange?_record (before : List (String × Json)) (names : List String) (values : List Json)
    (hlen : names.length = values.length) (hn : (before.map Prod.fst ++ names).Nodup) :
    arrange? names (record (before ++ names.zip values)) = some (values.map some) := by
  have hnames : ((before ++ names.zip values).map Prod.fst).Nodup := by
    rw [List.map_append, List.map_fst_zip (Nat.le_of_eq hlen)]
    exact hn
  refine mapM_zip (by rw [List.length_map, hlen]) (fun p hp => ?_)
  rw [List.zip_map_right, List.mem_map] at hp
  obtain ⟨q, hq, rfl⟩ := hp
  exact only?_record _ hnames (List.mem_append_right before hq)

end Raster.Json
