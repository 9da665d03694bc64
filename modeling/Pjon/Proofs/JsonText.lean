import Pjon.Proofs.MQTTTranslate
import Pjon.Lib.Scan
import Mathlib.Data.List.TakeWhile
import Pjon.Spec.JsonBus
/-!
# Scanning a text of `send_frame`

The pointer of the scanner is a position in the text, and each step is stated by what remains
there.  The search for a key goes on in the data; it finds nothing there but the end of the text.
-/

namespace Pjon.Proofs.JsonText

open Pjon.Lib Pjon.Model Pjon.Model.MQTTTranslate Pjon.Spec
open Pjon.Proofs.MQTTTranslate

variable {s rest : List UInt8} {c : UInt8} {length p : Nat}

/-! ## Positions -/

theorem char_of_drop (h : s.drop p = c :: rest) : char s p = c := by
  rw [char, List.getD_eq_getElem?_getD, ← List.head?_drop, h]
  rfl

theorem drop_add_of_drop (front : List UInt8) (h : s.drop p = front ++ rest) :
    s.drop (p + front.length) = rest := by
  rw [← List.drop_drop, h, List.drop_left]

theorem drop_succ_of_drop (h : s.drop p = c :: rest) : s.drop (p + 1) = rest :=
  drop_add_of_drop [c] h

theorem startsWith_of_drop (key : List UInt8) (h : s.drop p = key ++ rest) :
    startsWith s key p = true := by
  rw [startsWith, h, List.isPrefixOf_iff_prefix]
  exact List.prefix_append key rest

/-- What is skipped: nothing stops the pointer ahead of `c`, and there it is stopped, at the
latest because no byte of the text is behind it. -/
theorem skip_of_drop (front : List UInt8) {stop : UInt8 → Bool} {todo : Nat}
    (h : s.drop p = front ++ c :: rest) (hfront : ∀ x ∈ front, x ≠ 0 ∧ stop x = false)
    (hstop : stop c = true ∨ p + front.length + 1 = length) (hlength : p + front.length < length)
    (htodo : front.length ≤ todo) : skip s length stop todo p = p + front.length := by
  induction front generalizing p todo with
  | nil =>
      have hc := char_of_drop h
      cases todo with
      | zero => rfl
      | succ todo =>
          rw [skip, hc, if_neg]
          · rfl
          · rintro ⟨-, hlast, hgo⟩
            rcases hstop with hstop | hend
            · rw [hstop] at hgo
              cases hgo
            · rw [List.length_nil, Nat.add_zero] at hend
              omega
  | cons x front ih =>
      rw [List.length_cons] at hstop hlength htodo
      rw [List.forall_mem_cons] at hfront
      obtain ⟨todo, rfl⟩ := Nat.exists_eq_add_of_le' (Nat.le_of_add_left_le htodo)
      rw [skip, char_of_drop h, if_pos ⟨hfront.1.1, by omega, hfront.1.2⟩,
        ih (drop_succ_of_drop h) hfront.2 (hstop.imp_right fun hend => by omega) (by omega)
          (by omega), List.length_cons]
      omega

/-! ## Keys and values -/

/-- A key: what is ahead of the brace or the comma, and what is ahead of the quotation mark. -/
theorem findNextJsonKey_of_drop (front gap : List UInt8) (hc : c = 123 ∨ c = 44)
    (h : s.drop p = front ++ c :: (gap ++ 34 :: rest))
    (hfront : ∀ x ∈ front, x ≠ 0 ∧ x ≠ 123 ∧ x ≠ 44) (hgap : ∀ x ∈ gap, x ≠ 0 ∧ x ≠ 34)
    (hlength : p + front.length + gap.length + 2 < length) :
    findNextJsonKey s length p = (true, p + front.length + gap.length + 2) := by
  have hbrace : skip s length (fun c => c == 123 || c == 44) length p = p + front.length := by
    apply skip_of_drop _ h _ (Or.inl _) (by omega) (by omega)
    · intro x hx
      obtain ⟨hzero, hopen, hcomma⟩ := hfront x hx
      exact ⟨hzero, by simp only [hopen, hcomma, beq_eq_false_iff_ne.mpr, ne_eq, not_false_eq_true,
        Bool.or_self]⟩
    · rcases hc with rfl | rfl <;> rfl
  have hbehind := drop_succ_of_drop (drop_add_of_drop _ h)
  have hquote : skip s length (fun c => c == 34) length (p + front.length + 1) =
      p + front.length + 1 + gap.length := by
    apply skip_of_drop _ hbehind _ (Or.inl rfl) (by omega) (by omega)
    intro x hx
    exact ⟨(hgap x hx).1, beq_eq_false_iff_ne.mpr (hgap x hx).2⟩
  have hc' : char s (p + front.length) ≠ 0 := by
    rw [char_of_drop (drop_add_of_drop _ h)]
    rcases hc with rfl | rfl <;> decide
  have hquote' : char s (p + front.length + 1 + gap.length) = 34 :=
    char_of_drop (drop_add_of_drop _ hbehind)
  simp only [findNextJsonKey, hbrace, hquote, hquote']
  rw [if_neg (not_or.mpr ⟨hc', by omega⟩), if_neg (by simp; omega)]
  congr 1
  omega

/-- There is no key in what remains of the text, if it has no brace and no comma. -/
theorem findNextJsonKey_of_last (front : List UInt8) (h : s.drop p = front ++ c :: rest)
    (hfront : ∀ x ∈ front, x ≠ 0 ∧ x ≠ 123 ∧ x ≠ 44) (hlast : p + front.length + 1 = length) :
    (findNextJsonKey s length p).1 = false := by
  have hend : skip s length (fun c => c == 123 || c == 44) length p = p + front.length := by
    apply skip_of_drop _ h _ (Or.inr hlast) (by omega) (by omega)
    intro x hx
    obtain ⟨hzero, hopen, hcomma⟩ := hfront x hx
    exact ⟨hzero, by simp only [hopen, hcomma, beq_eq_false_iff_ne.mpr, ne_eq, not_false_eq_true,
      Bool.or_self]⟩
  simp only [findNextJsonKey, hend]
  rw [if_pos (Or.inr (by omega))]

/-- The value of a key that is followed by its colon at once; a quotation mark is left behind. -/
theorem findNextJsonValue_of_drop {key : List UInt8} (h : s.drop p = key ++ 58 :: c :: rest)
    (hkey : ∀ x ∈ key, x ≠ 0 ∧ x ≠ 58) (hc : c ≠ 0 ∧ c ≠ 32 ∧ c ≠ 9)
    (hlength : p + key.length + 2 < length) :
    findNextJsonValue s length p =
      (true, if c = 34 then p + key.length + 2 else p + key.length + 1) := by
  have hcolon : skip s length (fun c => c == 58) length p = p + key.length := by
    apply skip_of_drop _ h _ (Or.inl rfl) (by omega) (by omega)
    intro x hx
    exact ⟨(hkey x hx).1, beq_eq_false_iff_ne.mpr (hkey x hx).2⟩
  have hcolon' : char s (p + key.length) = 58 := char_of_drop (drop_add_of_drop _ h)
  have hbehind := drop_succ_of_drop (drop_add_of_drop _ h)
  have hblank : skip s length (fun c => c != 32 && c != 9) length (p + key.length + 1) =
      p + key.length + 1 := by
    have hstop : (c != 32 && c != 9) = true := by
      simp only [bne_iff_ne.mpr hc.2.1, bne_iff_ne.mpr hc.2.2, Bool.and_self]
    exact skip_of_drop [] hbehind (by simp) (Or.inl hstop) (by simp; omega) (by simp)
  have hchar : char s (p + key.length + 1) = c := char_of_drop hbehind
  simp only [findNextJsonValue, hcolon, hcolon', hblank, hchar]
  rw [if_neg (by simp; omega), if_neg (by simp only [hc.1, false_or]; omega)]
  split_ifs <;> rfl

/-! ## One turn of the loop -/

theorem startsWith_false (key : List UInt8) (h : s.drop p = rest)
    (hkey : key.isPrefixOf rest = false) : startsWith s key p = false := by
  rw [startsWith, h, hkey]

theorem valueOf_of_other (length : Nat) {key : List UInt8} (h : startsWith s key p = false) :
    valueOf s key length p = (false, p) := by
  rw [valueOf, h, if_neg Bool.false_ne_true]

theorem valueOf_of_drop {key : List UInt8} (h : s.drop p = key ++ 58 :: c :: rest)
    (hkey : ∀ x ∈ key, x ≠ 0 ∧ x ≠ 58) (hc : c ≠ 0 ∧ c ≠ 32 ∧ c ≠ 9)
    (hlength : p + key.length + 2 < length) :
    valueOf s key length p = (true, if c = 34 then p + key.length + 2 else p + key.length + 1) := by
  rw [valueOf, startsWith_of_drop key h, if_pos rfl, findNextJsonValue_of_drop h hkey hc hlength]

section Turn

variable {todo q : Nat} {fields : Fields}

theorem readFields_of_none (hkey : (findNextJsonKey s length p).1 = false) :
    readFields s length todo p fields = fields := by
  cases todo with
  | zero => rfl
  | succ todo => simp only [readFields, hkey, if_true]

theorem digit_plain (hdigit : isDigit c = true) :
    c ≠ 0 ∧ c ≠ 32 ∧ c ≠ 9 ∧ c ≠ 34 ∧ c ≠ 123 ∧ c ≠ 44 := by
  simp only [isDigit, Bool.and_eq_true, decide_eq_true_eq] at hdigit
  refine ⟨?_, ?_, ?_, ?_, ?_, ?_⟩ <;> rintro rfl <;> exact absurd hdigit (by decide)

theorem readFields_of_recipient (hkey : findNextJsonKey s length p = (true, q))
    (h : s.drop q = toKey ++ 58 :: c :: rest) (hdigit : isDigit c = true)
    (hlength : q + 5 < length) :
    readFields s length (todo + 1) p fields =
      readFields s length todo (q + 4)
        { fields with receiverId := UInt8.ofInt (atoi (c :: rest)) } := by
  obtain ⟨hzero, hblank, htab, hquote, -⟩ := digit_plain hdigit
  have hvalue := valueOf_of_drop h (by simp [toKey]) ⟨hzero, hblank, htab⟩ hlength
  have htext : s.drop (q + 4) = c :: rest := drop_add_of_drop (toKey ++ [58]) h
  rw [if_neg hquote] at hvalue
  simp only [readFields, hkey, hvalue, Bool.true_eq_false, if_false, if_true]
  rw [← htext]
  rfl

theorem readFields_of_sender (hkey : findNextJsonKey s length p = (true, q))
    (h : s.drop q = fromKey ++ 58 :: c :: rest) (hdigit : isDigit c = true)
    (hlength : q + 7 < length) :
    readFields s length (todo + 1) p fields =
      readFields s length todo (q + 6)
        { fields with senderId := UInt8.ofInt (atoi (c :: rest)) } := by
  obtain ⟨hzero, hblank, htab, hquote, -⟩ := digit_plain hdigit
  have hother := valueOf_of_other length (startsWith_false toKey h rfl)
  have hvalue := valueOf_of_drop h (by simp [fromKey]) ⟨hzero, hblank, htab⟩ hlength
  have htext : s.drop (q + 6) = c :: rest := drop_add_of_drop (fromKey ++ [58]) h
  rw [if_neg hquote] at hvalue
  simp only [readFields, hkey, hother, hvalue, Bool.true_eq_false, Bool.false_eq_true, if_false,
    if_true]
  rw [← htext]
  rfl

/-- The data start behind the quotation mark, and the pointer is left there. -/
theorem readFields_of_data (hkey : findNextJsonKey s length p = (true, q))
    (h : s.drop q = dataKey ++ 58 :: 34 :: rest) (hlength : q + 7 < length) :
    readFields s length (todo + 1) p fields =
      readFields s length todo (q + 7) (takeData s (q + 7) fields) := by
  have hto := valueOf_of_other length (startsWith_false toKey h rfl)
  have hfrom := valueOf_of_other length (startsWith_false fromKey h rfl)
  have hvalue := valueOf_of_drop h (by simp [dataKey]) (by decide) hlength
  rw [if_pos rfl] at hvalue
  simp only [readFields, hkey, hto, hfrom, hvalue, Bool.true_eq_false, Bool.false_eq_true,
    if_false, if_true]
  rfl

theorem readFields_of_other (hkey : findNextJsonKey s length p = (true, q))
    (hto : startsWith s toKey q = false) (hfrom : startsWith s fromKey q = false)
    (hdata : startsWith s dataKey q = false) :
    readFields s length (todo + 1) p fields = readFields s length todo q fields := by
  simp only [readFields, hkey, valueOf_of_other length hto, valueOf_of_other length hfrom,
    valueOf_of_other length hdata, Bool.true_eq_false, Bool.false_eq_true, if_false]

/-- From the data on there is at most one key, which is the brace at the end. -/
theorem readFields_of_tail {data : List UInt8} (h : s.drop p = data ++ 34 :: 125 :: rest)
    (hdata : ∀ x ∈ data, x ≠ 0 ∧ x ≠ 34) (hlength : p + data.length + 2 = length) :
    readFields s length todo p fields = fields := by
  rcases Scan.splitOnP_cases (fun c : UInt8 => c == 123 || c == 44) data with
    ⟨-, hnone⟩ | ⟨front, sep, gap, rfl, hfront, hsep, -⟩
  · have hlast : s.drop p = (data ++ [34]) ++ 125 :: rest := by
      rw [h, List.append_assoc, List.singleton_append]
    apply readFields_of_none
    apply findNextJsonKey_of_last _ hlast
    · intro x hx
      rcases List.mem_append.mp hx with hx | hx
      · have hx' := hnone x hx
        simp only [Bool.or_eq_false_iff, beq_eq_false_iff_ne] at hx'
        exact ⟨(hdata x hx).1, hx'⟩
      · rw [List.mem_singleton.mp hx]
        decide
    · rw [List.length_append, List.length_singleton]
      omega
  · have hsplit : s.drop p = front ++ sep :: (gap ++ 34 :: 125 :: rest) := by
      rw [h, List.append_assoc, List.cons_append]
    have hopen : sep = 123 ∨ sep = 44 := by
      rcases Bool.or_eq_true _ _ ▸ hsep with hsep | hsep
      · exact Or.inl (eq_of_beq hsep)
      · exact Or.inr (eq_of_beq hsep)
    rw [List.length_append, List.length_cons] at hlength
    have hkey : findNextJsonKey s length p = (true, p + front.length + gap.length + 2) :=
      findNextJsonKey_of_drop front gap hopen hsplit
      (fun x hx => ⟨(hdata x (List.mem_append_left _ hx)).1, by
        have hx' := hfront x hx
        simpa only [Bool.or_eq_false_iff, beq_eq_false_iff_ne] using hx'⟩)
      (fun x hx => hdata x (List.mem_append_right _ (List.mem_cons_of_mem _ hx))) (by omega)
    have hbrace : s.drop (p + front.length + gap.length + 2) = 125 :: rest := by
      have hdrop : s.drop (p + (front ++ sep :: (gap ++ [34])).length) = 125 :: rest := by
        apply drop_add_of_drop
        rw [hsplit]
        simp
      rw [← hdrop]
      congr 1
      simp
      omega
    cases todo with
    | zero => rfl
    | succ todo =>
        rw [readFields_of_other hkey (startsWith_false _ hbrace rfl) (startsWith_false _ hbrace rfl)
          (startsWith_false _ hbrace rfl)]
        apply readFields_of_none
        exact findNextJsonKey_of_last [] hbrace (by simp) (by simp; omega)

end Turn

/-! ## Numbers -/

theorem digits_append {number : List UInt8} (rest : List UInt8)
    (hnumber : ∀ x ∈ number, isDigit x = true) (hc : isDigit c = false) :
    digits (number ++ c :: rest) = digits number := by
  have hall : number.takeWhile isDigit = number := List.takeWhile_eq_self_iff.mpr hnumber
  rw [digits, digits, List.takeWhile_append_of_pos hnumber, hall, List.takeWhile_cons_of_neg]
  · rw [List.append_nil]
  · rw [hc]
    exact Bool.false_ne_true

theorem atoi_digits {number : List UInt8} (hne : number ≠ [])
    (hnumber : ∀ x ∈ number, isDigit x = true) (hc : isDigit c = false) :
    atoi (number ++ c :: rest) = (digits number : Int) := by
  rw [← digits_append rest hnumber hc]
  cases number with
  | nil => exact absurd rfl hne
  | cons x number =>
      have hx := hnumber x List.mem_cons_self
      have hspace : isSpace x = false := by
        simp only [isDigit, Bool.and_eq_true, decide_eq_true_eq] at hx
        simp only [isSpace, Bool.or_eq_false_iff, beq_eq_false_iff_ne, Bool.and_eq_false_iff,
          decide_eq_false_iff_not]
        have hlow := UInt8.le_iff_toNat_le.mp hx.1
        refine ⟨?_, Or.inr ?_⟩
        · rintro rfl
          exact absurd hlow (by decide)
        · rw [UInt8.le_iff_toNat_le]
          change 48 ≤ x.toNat at hlow
          change ¬x.toNat ≤ 13
          omega
      have hdrop : (x :: number ++ c :: rest).dropWhile isSpace = x :: number ++ c :: rest := by
        rw [List.cons_append, List.dropWhile_cons_of_neg]
        rw [hspace]
        exact Bool.false_ne_true
      rw [atoi, hdrop]
      split
      · next heq =>
          rw [List.cons_append, List.cons.injEq] at heq
          rw [heq.1] at hx
          cases hx
      · next heq =>
          rw [List.cons_append, List.cons.injEq] at heq
          rw [heq.1] at hx
          cases hx
      · rfl

/-! ## The whole text -/

theorem cString_of_plain {data : List UInt8} (hdata : ∀ x ∈ data, x ≠ 0 ∧ x ≠ 34) :
    cString data = data :=
  List.takeWhile_eq_self_iff.mpr fun x hx => bne_iff_ne.mpr (hdata x hx).1

/-- The data end at the quotation mark. -/
theorem takeData_of_drop {data : List UInt8} (fields : Fields)
    (h : s.drop p = data ++ 34 :: rest) (hdata : ∀ x ∈ data, x ≠ 0 ∧ x ≠ 34)
    (hlength : p + data.length < fields.payload + fields.length) (hlt : data.length < 65536) :
    takeData s p fields = { fields with found := true, payload := p, length := data.length } := by
  have hskip : skip s (fields.payload + fields.length) (fun c => c == 34) s.length p =
      p + data.length := by
    apply skip_of_drop _ h _ (Or.inl rfl) hlength
    · have hle := congrArg List.length h
      rw [List.length_drop, List.length_append, List.length_cons] at hle
      omega
    · intro x hx
      exact ⟨(hdata x hx).1, beq_eq_false_iff_ne.mpr (hdata x hx).2⟩
  have hquote : char s (p + data.length) = 34 := char_of_drop (drop_add_of_drop _ h)
  simp only [takeData, hskip]
  rw [if_pos hquote, Nat.add_sub_cancel_left, Nat.mod_eq_of_lt hlt]

section Text

variable {publishing : Publishing} (hlibrary : WritesDecimal publishing.uint8toa)

include hlibrary

theorem number_plain (n : UInt8) :
    ∀ x ∈ publishing.uint8toa n, x ≠ 0 ∧ x ≠ 123 ∧ x ≠ 44 := by
  intro x hx
  obtain ⟨hzero, -, -, -, hopen, hcomma⟩ := digit_plain (hlibrary.isDigit n x hx)
  exact ⟨hzero, hopen, hcomma⟩

theorem ofInt_atoi (n : UInt8) :
    UInt8.ofInt (atoi (publishing.uint8toa n ++ 44 :: rest)) = n := by
  have hsmall : ((n.toNat : Int) % 2 ^ 8).toNat = n.toNat := by
    have hlt := n.toNat_lt
    omega
  rw [atoi_digits (hlibrary.nonempty n) (hlibrary.isDigit n) (by decide), hlibrary.digits,
    UInt8.ofInt, hsmall, UInt8.ofNat_toNat]

/-- One turn for each of the three keys, and the fields are those the text was made of. -/
theorem readFields_of_text (recipient sender : UInt8) {data : List UInt8} (behind : List UInt8)
    (hdata : ∀ x ∈ data, x ≠ 0 ∧ x ≠ 34) (hlt : data.length < 65536) {length : Nat}
    (hlength : length = (publishing.jsonText recipient sender data).length) (todo : Nat) :
    readFields (publishing.jsonText recipient sender data ++ behind) length (todo + 3) 0
        { length := length } =
      { senderId := sender, receiverId := recipient, found := true
        payload := (publishing.jsonFront recipient sender).length, length := data.length } := by
  obtain ⟨first, number, hfirst⟩ := List.exists_cons_of_ne_nil (hlibrary.nonempty recipient)
  obtain ⟨first', number', hfirst'⟩ := List.exists_cons_of_ne_nil (hlibrary.nonempty sender)
  have hdigit : isDigit first = true :=
    hlibrary.isDigit recipient first (hfirst ▸ List.mem_cons_self)
  have hdigit' : isDigit first' = true :=
    hlibrary.isDigit sender first' (hfirst' ▸ List.mem_cons_self)
  have hnumber : ∀ rest, UInt8.ofInt (atoi (first :: (number ++ 44 :: rest))) = recipient := by
    intro rest
    rw [← List.cons_append, ← hfirst, ofInt_atoi hlibrary]
  have hnumber' : ∀ rest, UInt8.ofInt (atoi (first' :: (number' ++ 44 :: rest))) = sender := by
    intro rest
    rw [← List.cons_append, ← hfirst', ofInt_atoi hlibrary]
  have hwidth : (publishing.jsonFront recipient sender).length =
      23 + (publishing.uint8toa recipient).length + (publishing.uint8toa sender).length := by
    simp only [Publishing.jsonFront, List.length_append, List.length_cons, List.length_nil]
    omega
  have htotal : length = 25 + (publishing.uint8toa recipient).length +
      (publishing.uint8toa sender).length + data.length := by
    rw [hlength, Publishing.jsonText, cString_of_plain hdata, List.length_append,
      List.length_append, hwidth, List.length_cons, List.length_singleton]
    omega
  have htext : publishing.jsonText recipient sender data ++ behind =
      [123, 34] ++ (toKey ++ 58 :: (publishing.uint8toa recipient ++ ([44, 34] ++ (fromKey ++ 58 ::
        (publishing.uint8toa sender ++ ([44, 34] ++ (dataKey ++ 58 :: 34 ::
          (data ++ 34 :: 125 :: behind)))))))) := by
    simp [Publishing.jsonText, Publishing.jsonFront, cString_of_plain hdata, toKey, fromKey,
      dataKey]
  generalize publishing.jsonText recipient sender data ++ behind = s at htext
  -- where the three keys and their values are
  have hrecipientKey : s.drop 2 = toKey ++ 58 :: (publishing.uint8toa recipient ++ 44 :: 34 ::
      (fromKey ++ 58 :: (publishing.uint8toa sender ++ 44 :: 34 :: (dataKey ++ 58 :: 34 ::
        (data ++ 34 :: 125 :: behind))))) := drop_add_of_drop [123, 34] htext
  have hrecipient := drop_add_of_drop (toKey ++ [58])
    (hrecipientKey.trans (by rw [List.append_assoc, List.singleton_append]))
  have hsenderKey := drop_succ_of_drop (drop_succ_of_drop (drop_add_of_drop _ hrecipient))
  have hsender := drop_add_of_drop (fromKey ++ [58])
    (hsenderKey.trans (by rw [List.append_assoc, List.singleton_append]))
  have hdataKey := drop_succ_of_drop (drop_succ_of_drop (drop_add_of_drop _ hsender))
  have hvalue := drop_add_of_drop (dataKey ++ [58, 34])
    (hdataKey.trans (by rw [List.append_assoc]; rfl))
  set r := (publishing.uint8toa recipient).length with hr
  set t := (publishing.uint8toa sender).length with ht
  change s.drop 6 = _ at hrecipient
  change s.drop (6 + r + 2) = _ at hsenderKey
  change s.drop (6 + r + 2 + 6) = _ at hsender
  change s.drop (6 + r + 2 + 6 + t + 2) = _ at hdataKey
  change s.drop (6 + r + 2 + 6 + t + 2 + 7) = _ at hvalue
  -- the turns
  have hkey : findNextJsonKey s length 0 = (true, 2) :=
    findNextJsonKey_of_drop [] [] (Or.inl rfl) htext (by simp) (by simp)
      (by simp; omega)
  have hkey' : findNextJsonKey s length 6 = (true, 6 + r + 2) :=
    findNextJsonKey_of_drop _ [] (Or.inr rfl) hrecipient (number_plain hlibrary recipient)
      (by simp) (by simp; omega)
  have hkey'' : findNextJsonKey s length (6 + r + 2 + 6) = (true, 6 + r + 2 + 6 + t + 2) :=
    findNextJsonKey_of_drop _ [] (Or.inr rfl) hsender (number_plain hlibrary sender)
      (by simp) (by simp; omega)
  have hdone := takeData_of_drop ⟨sender, recipient, false, 0, length⟩ hvalue hdata
    (by simp only; omega) hlt
  rw [hfirst, List.cons_append] at hrecipientKey
  rw [hfirst', List.cons_append] at hsenderKey
  rw [readFields_of_recipient hkey hrecipientKey hdigit (by omega),
    readFields_of_sender hkey' hsenderKey hdigit' (by omega),
    readFields_of_data hkey'' hdataKey (by omega), hnumber, hnumber', hdone,
    readFields_of_tail hvalue hdata (by omega), hwidth]
  congr 1
  omega

/-- What is composed of such a text. -/
theorem jsonRequest_of_text (strategy : Strategy) {message : Message} {recipient sender : UInt8}
    (hrecipient : recipient ≠ 0) (payload : Payload) (hdata : ∀ x ∈ payload.bytes, x ≠ 0 ∧ x ≠ 34)
    (hmessage : message.payload.bytes = publishing.jsonText recipient sender payload.bytes) :
    jsonRequest strategy message =
      some
        { info := fillInfo sender strategy.busId recipient strategy.busId strategy.header
          payload := payload
          header := if sender ≠ 0 then strategy.header ||| txInfoBit else strategy.header } := by
  have hlength : message.payload.length =
      (publishing.jsonText recipient sender payload.bytes).length := by rw [← hmessage]; rfl
  have hlong : 3 ≤ message.payload.length := by
    rw [hlength]
    simp only [Publishing.jsonText, Publishing.jsonFront, List.length_append, List.length_cons]
    omega
  obtain ⟨todo, htodo⟩ := Nat.exists_eq_add_of_le' hlong
  have hfields := readFields_of_text hlibrary recipient sender message.behind hdata payload.fits
    hlength todo
  rw [← htodo, ← hmessage] at hfields
  have hslice : slice (message.payload.bytes ++ message.behind)
      (publishing.jsonFront recipient sender).length payload.bytes.length = payload := by
    obtain ⟨data, hfits⟩ := payload
    simp only [slice, Nat.mod_eq_of_lt hfits, hmessage, Publishing.jsonText,
      cString_of_plain hdata, List.append_assoc, List.drop_left, List.take_left]
  simp only [jsonRequest, hfields, hslice]
  rw [if_neg (not_or.mpr ⟨hrecipient, Bool.noConfusion⟩)]

end Text

end Pjon.Proofs.JsonText
