import Mathlib.Tactic.SplitIfs
import Raster.Json.Printer
import Raster.Proofs.Numerals

/- JSON read back. A value all of whose strings and names stand for texts and all of whose
   numerals are written as JSON allows (`Json.All`) is read from its own text, wherever
   that stands and however it is laid out (`readValue_takes`, by recursion over the value):
   `parse_print`. -/
namespace Raster.Json

open Decimal

/-! Strings. -/

theorem hexValue?_hexDigit : ∀ n, n < 16 → hexValue? (hexDigit n) = some n := by decide

/-- The number of a control character is no half of a pair, whatever follows. -/
theorem join_unit {n : Nat} (h : n < 32) (ps : List Piece) :
    join (.unit n :: ps) = (join ps).map (Char.ofNat n :: ·) := by
  have hhigh : isHigh n = false := by
    simp only [isHigh, Bool.and_eq_false_iff, decide_eq_false_iff_not]
    omega
  have hlow : isLow n = false := by
    simp only [isLow, Bool.and_eq_false_iff, decide_eq_false_iff_not]
    omega
  match ps with
  | [] => simp [join, hhigh, hlow]
  | .char c :: r => simp [join, hhigh, hlow]
  | .unit m :: r => simp [join, hhigh, hlow]

/-- A character is written by a letter, by its number or as it is. -/
theorem escape_cases (c : Char) :
    (∃ l, escape c = ['\\', l] ∧ shortEscape? l = some c ∧ l ≠ 'u') ∨
    (c.toNat < 32 ∧
      escape c = ['\\', 'u', '0', '0', hexDigit (c.toNat / 16), hexDigit (c.toNat % 16)]) ∨
    (c ≠ '"' ∧ c ≠ '\\' ∧ ¬ c.toNat < 32 ∧ escape c = [c]) := by
  unfold escape
  split_ifs with h₁ h₂ h₃ h₄ h₅ h₆ h₇ h₈
  · exact Or.inl ⟨'"', rfl, by rw [h₁]; rfl, by decide⟩
  · exact Or.inl ⟨'\\', rfl, by rw [h₂]; rfl, by decide⟩
  · exact Or.inl ⟨'b', rfl, by rw [h₃]; rfl, by decide⟩
  · exact Or.inl ⟨'f', rfl, by rw [h₄]; rfl, by decide⟩
  · exact Or.inl ⟨'n', rfl, by rw [h₅]; rfl, by decide⟩
  · exact Or.inl ⟨'r', rfl, by rw [h₆]; rfl, by decide⟩
  · exact Or.inl ⟨'t', rfl, by rw [h₇]; rfl, by decide⟩
  · exact Or.inr (Or.inl ⟨h₈, rfl⟩)
  · exact Or.inr (Or.inr ⟨h₁, h₂, h₈, rfl⟩)

/-- An escaped character does not end the string. -/
theorem escape_head (c : Char) (s : List Char) : (escape c ++ s).head? ≠ some '"' := by
  rcases escape_cases c with ⟨l, he, -, -⟩ | ⟨-, he⟩ | ⟨hquote, -, -, he⟩
  · rw [he]
    exact fun h => absurd (Option.some.inj h) (by decide)
  · rw [he]
    exact fun h => absurd (Option.some.inj h) (by decide)
  · rw [he]
    exact fun h => hquote (Option.some.inj h)

/-- An escaped character is read as one piece that stands for it. -/
theorem piece_escape (c : Char) (s : List Char) :
    ∃ p, Takes (piece (escape c ++ s)) p s ∧ ∀ ps, join (p :: ps) = (join ps).map (c :: ·) := by
  rcases escape_cases c with ⟨l, he, hl, hu⟩ | ⟨hc, he⟩ | ⟨hquote, hslash, hc, he⟩
  · refine ⟨.char c, ?_, fun _ => rfl⟩
    rw [he]
    show Takes (piece ('\\' :: l :: s)) _ _
    rw [piece.eq_3 _ _ (fun _ _ _ _ _ h _ => hu h), hl]
    exact ⟨_, rfl⟩
  · have hhex : hex4? '0' '0' (hexDigit (c.toNat / 16)) (hexDigit (c.toNat % 16)) =
        some c.toNat := by
      simp only [hex4?, hexValue?_hexDigit _ (show c.toNat / 16 < 16 by omega),
        hexValue?_hexDigit _ (Nat.mod_lt c.toNat (show 0 < 16 by decide))]
      show some ((0 * 16 + 0) * 256 + c.toNat / 16 * 16 + c.toNat % 16) = some c.toNat
      congr 1
      omega
    refine ⟨.unit c.toNat, ?_, fun ps => ?_⟩
    · rw [he]
      show Takes (piece ('\\' :: 'u' :: _ :: _ :: _ :: _ :: s)) _ _
      rw [piece.eq_2, hhex]
      exact ⟨_, rfl⟩
    · rw [join_unit hc, Char.ofNat_toNat]
  · refine ⟨.char c, ?_, fun _ => rfl⟩
    rw [he]
    show Takes (piece (c :: s)) _ _
    rw [piece.eq_4 _ _ (fun _ _ _ _ _ h _ => hslash h) (fun _ _ h _ => hslash h), if_neg]
    · exact ⟨_, rfl⟩
    · simp only [hquote, hslash, hc, or_self, not_false_eq_true]

/-- The characters of a string are read up to its closing quote. -/
theorem pieces_escape (cs s : List Char) :
    ∃ ps, Takes (pieces (cs.flatMap escape ++ '"' :: s)) ps s ∧ join ps = some cs := by
  induction cs with
  | nil => exact ⟨[], ⟨_, pieces.eq_1 s⟩, rfl⟩
  | cons c cs ih =>
    obtain ⟨ps, hps, hjoin⟩ := ih
    obtain ⟨p, hp, hmeans⟩ := piece_escape c (cs.flatMap escape ++ '"' :: s)
    refine ⟨p :: ps, ?_, ?_⟩
    · rw [List.flatMap_cons, List.append_assoc,
        pieces.eq_2 _ (ne_cons_of_head? (escape_head c _))]
      exact hp.bind (fun _ => hps.bind (fun _ => ⟨_, rfl⟩))
    · rw [hmeans, hjoin]
      rfl

/-- A text is read from its quoted form. -/
theorem stringBody_takes (t : String) (s : List Char) :
    Takes (stringBody (t.toList.flatMap escape ++ '"' :: s)) (some t) s := by
  obtain ⟨ps, hps, hjoin⟩ := pieces_escape t.toList s
  refine hps.bind (fun h => ⟨h, ?_⟩)
  show some ((join ps).map String.ofList, _) = _
  rw [hjoin, Option.map_some, String.ofList_toList]

/-! Spaces and marks. -/

theorem skipSpace_of_head {s : List Char} (h : ∀ c ∈ s.head?, isSpace c = false) :
    skipSpace s = s := by
  cases s with
  | nil => rfl
  | cons c r => simp [skipSpace, h c rfl]

theorem skipSpace_newLine (n : Nat) (s : List Char) : skipSpace (newLine n ++ s) = skipSpace s := by
  have hspaces : ∀ k, skipSpace (List.replicate k ' ' ++ s) = skipSpace s := by
    intro k
    induction k with
    | zero => rfl
    | succ k ih => exact ih
  exact hspaces (2 * n)

theorem mark_of_eq {c : Char} {s r : List Char} (h : skipSpace s = c :: r) :
    ∃ hr, mark c s = some ⟨r, hr⟩ := by
  have hlen := length_skipSpace_le s
  rw [h, List.length_cons] at hlen
  refine ⟨hlen, ?_⟩
  unfold mark
  split
  · rename_i d t heq
    rw [heq] at h
    obtain ⟨rfl, rfl⟩ := List.cons.inj h
    exact if_pos rfl
  · rename_i heq
    rw [heq] at h
    cases h

theorem mark_of_ne {c d : Char} {s r : List Char} (h : skipSpace s = d :: r) (hne : d ≠ c) :
    mark c s = none := by
  unfold mark
  split
  · rename_i e t heq
    rw [heq] at h
    obtain ⟨rfl, -⟩ := List.cons.inj h
    exact if_neg hne
  · rfl

theorem word_of_ne {c d : Char} (h : d ≠ c) (w r : List Char) : word (d :: w) (c :: r) = none := by
  refine dif_neg (fun hw => h ?_)
  obtain ⟨u, hu⟩ := List.isPrefixOf_iff_prefix.1 hw.2
  exact (List.cons.inj hu).1

/-! Values. -/

mutual

/-- Every numeral has the property `p`, every string and every name stands for a text. -/
def All (p : Numeral → Prop) : Json → Prop
  | number n => p n
  | string s => s.isSome = true
  | array items => AllItems p items
  | object fields => AllFields p fields
  | _ => True

def AllItems (p : Numeral → Prop) : List Json → Prop
  | [] => True
  | x :: xs => All p x ∧ AllItems p xs

def AllFields (p : Numeral → Prop) : List (Option String × Json) → Prop
  | [] => True
  | (k, x) :: xs => k.isSome = true ∧ All p x ∧ AllFields p xs

end

theorem quote_eq (t : String) (s : List Char) :
    quote (some t) ++ s = '"' :: (t.toList.flatMap escape ++ '"' :: s) := by
  simp [quote]

/-- The text of a value begins with a character that is no space and closes no array. -/
theorem print_head (n : Nat) {v : Json} (hv : v.All Numeral.Readable) (s : List Char) :
    ∃ c r, print n v ++ s = c :: r ∧ isSpace c = false ∧ c ≠ ']' := by
  match v with
  | null => exact ⟨'n', _, rfl, by decide⟩
  | bool true => exact ⟨'t', _, rfl, by decide⟩
  | bool false => exact ⟨'f', _, rfl, by decide⟩
  | number m =>
    obtain ⟨c, r, htext, hc⟩ := chars_head hv s
    refine ⟨c, r, htext, ?_⟩
    rcases hc with rfl | ⟨d, rfl⟩
    · decide
    · have hdigit : ∀ d : Digit, isSpace d.char = false ∧ d.char ≠ ']' := by decide
      exact hdigit d
  | string t => exact ⟨'"', _, rfl, by decide⟩
  | array [] => exact ⟨'[', _, rfl, by decide⟩
  | array (_ :: _) => exact ⟨'[', _, rfl, by decide⟩
  | object [] => exact ⟨'\x7b', _, rfl, by decide⟩
  | object ((_, _) :: _) => exact ⟨'\x7b', _, rfl, by decide⟩

theorem skipSpace_print (m n : Nat) {v : Json} (hv : v.All Numeral.Readable) (s : List Char) :
    skipSpace (newLine m ++ (print n v ++ s)) = print n v ++ s := by
  obtain ⟨c, r, htext, hspace, -⟩ := print_head n hv s
  rw [skipSpace_newLine, htext, skipSpace_of_head]
  intro d hd
  cases hd
  exact hspace

/-- What begins no string, array or object is an atom. -/
theorem readValue_of_atom {s r rest : List Char} {c : Char} {v : Json} (hs : skipSpace s = c :: r)
    (hc : c ≠ '"' ∧ c ≠ '[' ∧ c ≠ '\x7b') (h : Takes (atom (c :: r)) v rest) :
    Takes (readValue s) v rest := by
  obtain ⟨hquote, hbracket, hbrace⟩ := hc
  rw [← hs] at h
  rw [readValue, mark_of_ne hs hquote, mark_of_ne hs hbracket, mark_of_ne hs hbrace]
  exact h.map id _

theorem readValue_string {t : String} {s rest : List Char}
    (h : skipSpace s = quote (some t) ++ rest) : Takes (readValue s) (string (some t)) rest := by
  rw [quote_eq] at h
  obtain ⟨hlen, hmark⟩ := mark_of_eq h
  rw [readValue, hmark]
  exact (stringBody_takes t rest).bind (fun _ => ⟨_, rfl⟩)

theorem readValue_number {n : Numeral} (hn : n.Readable) {s rest : List Char} (hr : Ends rest)
    (h : skipSpace s = n.chars ++ rest) : Takes (readValue s) (number n) rest := by
  obtain ⟨c, r, htext, hc⟩ := chars_head hn rest
  have hne : ∀ d : Char, d ≠ '-' → Digit.ofChar? d = none → c ≠ d := by
    rintro d hminus hdigit rfl
    rcases hc with rfl | ⟨k, rfl⟩
    · exact hminus rfl
    · exact Digit.char_ne hdigit k rfl
  have hword : ∀ d w, d ≠ '-' → Digit.ofChar? d = none → word (d :: w) (c :: r) = none :=
    fun d w hminus hdigit => word_of_ne (hne d hminus hdigit).symm w r
  refine readValue_of_atom (h.trans htext) ⟨hne _ (by decide) (by decide),
    hne _ (by decide) (by decide), hne _ (by decide) (by decide)⟩ ?_
  rw [atom, hword _ _ (by decide) (by decide), hword _ _ (by decide) (by decide),
    hword _ _ (by decide) (by decide), ← htext]
  exact (numeral_takes hn hr).map number _

/-! One step of each reader. -/

section Steps
variable {s r t rest : List Char} {x : Json} {xs : List Json} {k : String}
  {fields : List (Option String × Json)}

theorem readItems_last (hx : Takes (readValue s) x r) (hr : skipSpace r = ']' :: rest) :
    Takes (readItems s) [x] rest := by
  obtain ⟨_, hx⟩ := hx
  obtain ⟨_, hclose⟩ := mark_of_eq hr
  rw [readItems, hx, Option.bind_eq_bind, Option.bind_some]
  dsimp only
  rw [mark_of_ne hr (by decide), hclose]
  exact ⟨_, rfl⟩

theorem readItems_more (hx : Takes (readValue s) x r) (hr : skipSpace r = ',' :: t)
    (hxs : Takes (readItems t) xs rest) : Takes (readItems s) (x :: xs) rest := by
  obtain ⟨_, hx⟩ := hx
  obtain ⟨_, hcomma⟩ := mark_of_eq hr
  rw [readItems, hx, Option.bind_eq_bind, Option.bind_some]
  dsimp only
  rw [hcomma]
  exact hxs.bind (fun _ => ⟨_, rfl⟩)

theorem readValue_noItems (hs : skipSpace s = '[' :: r) (hr : skipSpace r = ']' :: rest) :
    Takes (readValue s) (array []) rest := by
  obtain ⟨_, hopen⟩ := mark_of_eq hs
  obtain ⟨_, hclose⟩ := mark_of_eq hr
  rw [readValue, mark_of_ne hs (by decide), hopen]
  dsimp only
  rw [hclose]
  exact ⟨_, rfl⟩

theorem readValue_items (hs : skipSpace s = '[' :: r) {c : Char} (hr : skipSpace r = c :: t)
    (hc : c ≠ ']') (hxs : Takes (readItems r) xs rest) : Takes (readValue s) (array xs) rest := by
  obtain ⟨_, hopen⟩ := mark_of_eq hs
  rw [readValue, mark_of_ne hs (by decide), hopen]
  dsimp only
  rw [mark_of_ne hr hc]
  exact hxs.bind (fun _ => ⟨_, rfl⟩)

/-- A name and the value after the colon. -/
theorem readFields_field (hs : skipSpace s = quote (some k) ++ ':' :: t)
    (hx : Takes (readValue t) x r) :
    ∃ h : ∀ u : List Char, u.length < r.length → u.length < s.length, readFields s = (do
      match mark ',' r with
      | some ⟨t, ht⟩ => do
        let (xs, ⟨u, hu⟩) ← readFields t
        return ((some k, x) :: xs, ⟨u, h u (Nat.lt_trans hu ht)⟩)
      | none => do
        let ⟨u, hu⟩ ← mark '\x7d' r
        return ([(some k, x)], ⟨u, h u hu⟩)) := by
  rw [quote_eq] at hs
  obtain ⟨h₁, hopen⟩ := mark_of_eq hs
  obtain ⟨h₂, hbody⟩ := stringBody_takes k (':' :: t)
  obtain ⟨h₃, hcolon⟩ := mark_of_eq (c := ':') (show skipSpace (':' :: t) = ':' :: t from rfl)
  obtain ⟨h₄, hx⟩ := hx
  refine ⟨fun u hu => by omega, ?_⟩
  rw [readFields, hopen, Option.bind_eq_bind, Option.bind_some]
  dsimp only
  rw [hbody, Option.bind_eq_bind, Option.bind_some]
  dsimp only
  rw [hcolon, Option.bind_eq_bind, Option.bind_some]
  dsimp only
  rw [hx]
  rfl

theorem readFields_last (hs : skipSpace s = quote (some k) ++ ':' :: t)
    (hx : Takes (readValue t) x r) (hr : skipSpace r = '\x7d' :: rest) :
    Takes (readFields s) [(some k, x)] rest := by
  obtain ⟨_, hfield⟩ := readFields_field hs hx
  obtain ⟨_, hclose⟩ := mark_of_eq hr
  rw [hfield, mark_of_ne hr (by decide), hclose]
  exact ⟨_, rfl⟩

theorem readFields_more (hs : skipSpace s = quote (some k) ++ ':' :: t)
    (hx : Takes (readValue t) x r) {u : List Char} (hr : skipSpace r = ',' :: u)
    (hxs : Takes (readFields u) fields rest) :
    Takes (readFields s) ((some k, x) :: fields) rest := by
  obtain ⟨_, hfield⟩ := readFields_field hs hx
  obtain ⟨_, hcomma⟩ := mark_of_eq hr
  rw [hfield, hcomma]
  exact hxs.bind (fun _ => ⟨_, rfl⟩)

theorem readValue_noFields (hs : skipSpace s = '\x7b' :: r) (hr : skipSpace r = '\x7d' :: rest) :
    Takes (readValue s) (object []) rest := by
  obtain ⟨_, hopen⟩ := mark_of_eq hs
  obtain ⟨_, hclose⟩ := mark_of_eq hr
  rw [readValue, mark_of_ne hs (by decide),
    mark_of_ne hs (by decide), hopen]
  dsimp only
  rw [hclose]
  exact ⟨_, rfl⟩

theorem readValue_fields (hs : skipSpace s = '\x7b' :: r) {c : Char} (hr : skipSpace r = c :: t)
    (hc : c ≠ '\x7d') (hxs : Takes (readFields r) fields rest) : Takes (readValue s) (object fields) rest := by
  obtain ⟨_, hopen⟩ := mark_of_eq hs
  rw [readValue, mark_of_ne hs (by decide),
    mark_of_ne hs (by decide), hopen]
  dsimp only
  rw [mark_of_ne hr hc]
  exact hxs.bind (fun _ => ⟨_, rfl⟩)

end Steps

/-! Whole values. -/

/-- What follows an item or a field does not go on with it: a comma or a new line. -/
theorem ends_cons {c : Char} (hc : Digit.ofChar? c = none ∧ c ≠ '.' ∧ c ≠ 'e' ∧ c ≠ 'E')
    (s : List Char) : Ends (c :: s) := by
  intro d hd
  cases hd
  exact hc

theorem ends_printItems (n m : Nat) (xs : List Json) (s : List Char) :
    Ends (printItems n xs ++ (newLine m ++ s)) := by
  cases xs with
  | nil => exact ends_cons (by decide) _
  | cons x xs => exact ends_cons (by decide) _

theorem ends_printFields (n m : Nat) (xs : List (Option String × Json)) (s : List Char) :
    Ends (printFields n xs ++ (newLine m ++ s)) := by
  match xs with
  | [] => exact ends_cons (by decide) _
  | (k, x) :: xs => exact ends_cons (by decide) _

mutual

/-- A value is read from its text, up to what ends it. -/
theorem readValue_takes (v : Json) (n : Nat) {s rest : List Char} (hv : v.All Numeral.Readable)
    (hr : Ends rest) (h : skipSpace s = print n v ++ rest) : Takes (readValue s) v rest := by
  match v with
  | null => exact readValue_of_atom h (by decide) ⟨_, rfl⟩
  | bool true => exact readValue_of_atom h (by decide) ⟨_, rfl⟩
  | bool false => exact readValue_of_atom h (by decide) ⟨_, rfl⟩
  | number m => exact readValue_number hv hr h
  | string (some t) => exact readValue_string h
  | array [] => exact readValue_noItems h rfl
  | array (x :: xs) =>
    obtain ⟨hx, hxs⟩ := hv
    have htext : skipSpace s = '[' :: (newLine (n + 1) ++ (print (n + 1) x ++
        (printItems (n + 1) xs ++ (newLine n ++ ']' :: rest)))) := by
      rw [h]
      simp [print]
    have hfirst := skipSpace_print (n + 1) (n + 1) hx (printItems (n + 1) xs ++
      (newLine n ++ ']' :: rest))
    obtain ⟨c, r, hc, -, hclose⟩ := print_head (n + 1) hx (printItems (n + 1) xs ++
      (newLine n ++ ']' :: rest))
    exact readValue_items htext (hfirst.trans hc) hclose
      (readItems_takes x xs (n + 1) n hx hxs hfirst)
  | object [] => exact readValue_noFields h rfl
  | object ((some k, x) :: xs) =>
    obtain ⟨-, hx, hxs⟩ := hv
    have htext : skipSpace s = '\x7b' :: (newLine (n + 1) ++ (quote (some k) ++ ':' :: ' ' ::
        (print (n + 1) x ++ (printFields (n + 1) xs ++ (newLine n ++ '\x7d' :: rest))))) := by
      rw [h]
      simp [print]
    have hfirst : skipSpace (newLine (n + 1) ++ (quote (some k) ++ ':' :: ' ' ::
        (print (n + 1) x ++ (printFields (n + 1) xs ++ (newLine n ++ '\x7d' :: rest))))) =
          quote (some k) ++ ':' :: ' ' :: (print (n + 1) x ++ (printFields (n + 1) xs ++
            (newLine n ++ '\x7d' :: rest))) := skipSpace_newLine _ _
    exact readValue_fields htext (hfirst.trans (quote_eq k _)) (by decide)
      (readFields_takes k x xs (n + 1) n hx hxs hfirst)
termination_by sizeOf v

/-- Items are read up to the bracket that closes them. -/
theorem readItems_takes (x : Json) (xs : List Json) (n m : Nat) {s rest : List Char}
    (hx : x.All Numeral.Readable) (hxs : AllItems Numeral.Readable xs)
    (h : skipSpace s = print n x ++ (printItems n xs ++ (newLine m ++ ']' :: rest))) :
    Takes (readItems s) (x :: xs) rest := by
  have hfirst := readValue_takes x n hx (ends_printItems n m xs _) h
  match xs with
  | [] => exact readItems_last hfirst (skipSpace_newLine m _)
  | y :: ys =>
    obtain ⟨hy, hys⟩ := hxs
    have hcomma : skipSpace (printItems n (y :: ys) ++ (newLine m ++ ']' :: rest)) =
        ',' :: (newLine n ++ (print n y ++ (printItems n ys ++ (newLine m ++ ']' :: rest)))) := by
      rw [skipSpace_of_head (fun c hc => by cases hc; decide)]
      simp [printItems]
    exact readItems_more hfirst hcomma (readItems_takes y ys n m hy hys (skipSpace_print n n hy _))
termination_by sizeOf x + sizeOf xs + 1

/-- Fields are read up to the brace that closes them. -/
theorem readFields_takes (k : String) (x : Json) (xs : List (Option String × Json)) (n m : Nat)
    {s rest : List Char} (hx : x.All Numeral.Readable) (hxs : AllFields Numeral.Readable xs)
    (h : skipSpace s = quote (some k) ++ ':' :: ' ' :: (print n x ++ (printFields n xs ++
      (newLine m ++ '\x7d' :: rest)))) :
    Takes (readFields s) ((some k, x) :: xs) rest := by
  have hspace : skipSpace (' ' :: (print n x ++ (printFields n xs ++ (newLine m ++ '\x7d' :: rest)))) =
      print n x ++ (printFields n xs ++ (newLine m ++ '\x7d' :: rest)) :=
    skipSpace_print 0 n hx _
  have hfirst := readValue_takes x n hx (ends_printFields n m xs _) hspace
  match xs with
  | [] => exact readFields_last h hfirst (skipSpace_newLine m _)
  | (some k', y) :: ys =>
    obtain ⟨-, hy, hys⟩ := hxs
    have hcomma : skipSpace (printFields n ((some k', y) :: ys) ++ (newLine m ++ '\x7d' :: rest)) =
        ',' :: (newLine n ++ (quote (some k') ++ ':' :: ' ' :: (print n y ++ (printFields n ys ++
          (newLine m ++ '\x7d' :: rest))))) := by
      rw [skipSpace_of_head (fun c hc => by cases hc; decide)]
      simp [printFields]
    exact readFields_more h hfirst hcomma
      (readFields_takes k' y ys n m hy hys (skipSpace_newLine n _))
termination_by sizeOf x + sizeOf xs + 1

end

/-- A value is what its text says. -/
theorem parse_print {v : Json} (hv : v.All Numeral.Readable) : parse (print 0 v) = some v := by
  have hends : Ends [] := fun _ hc => nomatch hc
  have htext : skipSpace (print 0 v) = print 0 v ++ [] := by
    have hspace := skipSpace_print 0 0 hv []
    rw [skipSpace_newLine] at hspace
    simpa only [List.append_nil] using hspace
  obtain ⟨_, hread⟩ := readValue_takes v 0 hv hends htext
  rw [parse, hread]
  rfl

end Raster.Json
