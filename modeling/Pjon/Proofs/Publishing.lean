import Pjon.Spec.Publishing
import Pjon.Lib.Scan
/-!
# The loop over the items

`v` moves on only behind an item, so the loop stays at the first piece of the payload that is
none.  It ends behind the last piece, or at an item whose key there is no room for.
-/

namespace Pjon.Proofs.Publishing

open Pjon.Lib Pjon.Model Pjon.Model.MQTTTranslate Pjon.Spec

variable {settings : Publishing} {publisher : Publisher} {topic : List UInt8}
  {results : Nat → Bool}

/-- The piece is an item, and there is room for its key. -/
abbrev Good (settings : Publishing) (publisher : Publisher) (topic piece : List UInt8) : Prop :=
  (61 : UInt8) ∈ piece ∧ KeyFits settings publisher topic piece

/-- What the loop publishes for an item. -/
def shownPublication (settings : Publishing) (publisher : Publisher) (topic item : List UInt8) :
    Publication where
  topic := topic ++ [47] ++ settings.shownKey publisher (itemKey item)
  payload := settings.shownValue (itemValue item)
  retain := publisher.retain
  qos := publisher.qos

/-- `send_cnt` counts what has been published, in 8 bits. -/
def counted (published : List (Publication × Bool)) : UInt8 :=
  UInt8.ofNat (published.countP fun attempt => attempt.2)

/-- The loop, piece by piece. -/
def publishPieces (settings : Publishing) (publisher : Publisher) (topic : List UInt8)
    (results : Nat → Bool) :
    Nat → List (List UInt8) → List (Publication × Bool) → Option Publishing.Translated
  | 0, _, _ => none
  | _ + 1, [], _ => none
  | turns + 1, piece :: more, published =>
    if (61 : UInt8) ∈ piece then
      if KeyFits settings publisher topic piece then
        let published := published ++
          [(shownPublication settings publisher topic piece, results published.length)]
        if more = [] then
          some { published := published, success := some (decide (0 < counted published)) }
        else publishPieces settings publisher topic results turns more published
      else some { published := published, success := none }
    else publishPieces settings publisher topic results turns (piece :: more) published

theorem counted_concat (published : List (Publication × Bool)) (publication : Publication)
    (result : Bool) :
    counted (published ++ [(publication, result)]) =
      if result then counted published + 1 else counted published := by
  simp only [counted, List.countP_append, List.countP_singleton]
  cases result with
  | false => rfl
  | true => exact UInt8.ofNat_add _ _

theorem findValueSeparator_eq {payload piece tail : List UInt8} {v : Nat}
    (hdrop : payload.drop v = piece ++ tail) (hpiece : ∀ c ∈ piece, isSeparator c = false)
    (htail : ∀ c ∈ tail.head?, isSeparator c = true) :
    Publishing.findValueSeparator payload v = v + piece.length := by
  have htest : (fun c : UInt8 => c != 44 && c != 0) = fun c => !isSeparator c := by
    funext c
    rw [isSeparator, Bool.not_or]
    rfl
  rw [Publishing.findValueSeparator, hdrop, htest]
  rw [List.takeWhile_append_of_pos fun c hc => by rw [hpiece c hc, Bool.not_false]]
  cases tail with
  | nil => rw [List.takeWhile_nil, List.append_nil]
  | cons sep rest =>
      rw [List.takeWhile_cons_of_neg (by rw [htail sep rfl]; decide), List.append_nil]

/-- The first of the pieces from `v` on, and what follows it. -/
theorem pieces_drop {payload : List UInt8} {v : Nat} (hv : v ≤ payload.length) :
    ∃ piece tail more, payload.drop v = piece ++ tail ∧
      Publishing.findValueSeparator payload v = v + piece.length ∧
      pieces (payload.drop v) = piece :: more ∧
      (payload.length ≤ v + piece.length ∧ more = [] ∨
        v + piece.length < payload.length ∧
          pieces (payload.drop (v + piece.length + 1)) = more) := by
  have hlength : (payload.drop v).length = payload.length - v := List.length_drop
  rcases Scan.splitOnP_cases isSeparator (payload.drop v) with
    ⟨hpieces, hnone⟩ | ⟨piece, sep, rest, hdrop, hnone, hsep, hpieces⟩
  · have hwhole := (List.append_nil (payload.drop v)).symm
    refine ⟨payload.drop v, [], [], hwhole, ?_, hpieces, Or.inl ⟨by omega, rfl⟩⟩
    exact findValueSeparator_eq hwhole hnone fun c hc => absurd hc (Option.some_ne_none c).symm
  · have hmore : (payload.drop (v + piece.length + 1)) = rest := by
      rw [Nat.add_assoc, ← List.drop_drop, hdrop, ← List.drop_drop, List.drop_left]
      rfl
    rw [hdrop, List.length_append, List.length_cons] at hlength
    refine ⟨piece, sep :: rest, pieces rest, hdrop, ?_, hpieces, Or.inr ⟨by omega, by rw [hmore]⟩⟩
    exact findValueSeparator_eq hdrop hnone fun c hc => Option.some.inj hc ▸ hsep

/-- The loop from `v` on is that over the pieces that are left there. -/
theorem translateItems_eq {payload : List UInt8} {turns v : Nat}
    {published : List (Publication × Bool)} (hv : v ≤ payload.length) :
    settings.translateItems publisher topic payload results turns v (counted published)
        published =
      publishPieces settings publisher topic results turns (pieces (payload.drop v))
        published := by
  induction turns generalizing v published with
  | zero => rfl
  | succ turns ih =>
      obtain ⟨piece, tail, more, hdrop, hseparator, hpieces, hmore⟩ := pieces_drop hv
      have hitem : (payload.drop v).take (v + piece.length - v) = piece := by
        rw [Nat.add_sub_cancel_left, hdrop, List.take_left]
      rw [hpieces, publishPieces, Publishing.translateItems]
      simp only [hseparator, hitem]
      by_cases hkey : (61 : UInt8) ∈ piece
      · rw [if_pos hkey, if_pos hkey]
        by_cases hfits : KeyFits settings publisher topic piece
        · have hroom : ¬settings.topicSize ≤ topic.length + 1 +
              (settings.shownKey publisher (piece.takeWhile fun c => c != 61)).length :=
            Nat.not_le.mpr hfits
          rw [if_neg hroom, if_pos hfits]
          simp only [← counted_concat published
            (shownPublication settings publisher topic piece) (results published.length)]
          rcases hmore with ⟨hend, rfl⟩ | ⟨hbefore, hmore⟩
          · rw [if_pos hend, if_pos rfl]
            rfl
          · have hne : more ≠ [] := by
              rw [← hmore]
              exact List.splitOnP_ne_nil _ _
            rw [if_neg (Nat.not_le.mpr hbefore), if_neg hne, ← hmore]
            exact ih hbefore
        · have hlong : settings.topicSize ≤ topic.length + 1 +
              (settings.shownKey publisher (piece.takeWhile fun c => c != 61)).length :=
            Nat.not_lt.mp hfits
          rw [if_pos hlong, if_neg hfits]
      · rw [if_neg hkey, if_neg hkey, ih hv, hpieces]

/-! ## Items that are published as they are -/

section Whole

/-- The keys of the table fit in the buffer. -/
theorem length_translationsBehind (added : List (List UInt8 × List UInt8)) :
    ∀ row ∈ translationsBehind settings added, row.1.length ≤ settings.keySize - 1 ∧
      row.2.length ≤ settings.keySize - 1 := by
  have hrows := (Run.invariant
    (fun table keys => settings.addTranslation table keys.1 keys.2)
    (fun table => ∀ row ∈ table, row.1.length ≤ settings.keySize - 1 ∧
      row.2.length ≤ settings.keySize - 1) ?_ (fun row h => absurd h List.not_mem_nil) added).2
  · exact hrows
  · intro table keys h
    rw [Publishing.addTranslation]
    split_ifs
    · exact h
    · rw [List.forall_mem_append, List.forall_mem_singleton, List.length_map]
      exact ⟨h, List.length_take_le _ _, List.length_take_le _ _⟩

theorem length_cString_le (s : List UInt8) : (cString s).length ≤ s.length :=
  (List.takeWhile_prefix _).length_le

variable (hkey : settings.keySize < 256) {added : List (List UInt8 × List UInt8)}
  (htable : publisher.translations = translationsBehind settings added)

include htable in
theorem length_translations :
    ∀ row ∈ publisher.translations, (cString row.1).length ≤ settings.keySize - 1 ∧
      (cString row.2).length ≤ settings.keySize - 1 := by
  intro row hrow
  rw [htable] at hrow
  obtain ⟨hfirst, hsecond⟩ := length_translationsBehind added row hrow
  exact ⟨(length_cString_le row.1).trans hfirst, (length_cString_le row.2).trans hsecond⟩

include htable in
/-- A key that is too long for the buffer is not in the table. -/
theorem length_publishedName {key : List UInt8} (hlong : settings.keySize - 1 < key.length) :
    (publishedName publisher key).length = key.length := by
  have hnone : (publisher.translations.find? fun row => cString row.1 == key) = none := by
    rw [List.find?_eq_none]
    intro row hrow hfound
    have hlength := (length_translations htable row hrow).1
    rw [beq_iff_eq.mp hfound] at hlength
    omega
  rw [publishedName, hnone]
  simp only
  split_ifs
  · exact List.length_map _
  · rfl

include hkey

/-- Nothing longer than the buffer is shown, be it a key or a translation. -/
theorem length_shownKey_le (key : List UInt8) :
    (settings.shownKey publisher key).length ≤ settings.keySize - 1 := by
  have hcut : (key.take (min key.length (settings.keySize - 1) % 256)).length ≤
      settings.keySize - 1 := by
    rw [List.length_take, Nat.mod_eq_of_lt (by omega)]
    omega
  rw [Publishing.shownKey]
  split
  case h_1 name htranslate =>
    rw [Publishing.translate, Option.map_eq_some_iff] at htranslate
    obtain ⟨row, -, rfl⟩ := htranslate
    apply (List.length_take_le _ _).trans
    rw [Nat.mod_eq_of_lt hkey]
  case h_2 =>
    split_ifs
    · rwa [List.length_map]
    · exact hcut

include htable

/-- A key is published under its name exactly if it is not cut. -/
theorem shownKey_eq_iff (key : List UInt8) :
    settings.shownKey publisher key = publishedName publisher key ↔
      key.length ≤ settings.keySize - 1 := by
  constructor
  · intro heq
    by_contra hlong
    have hcut : (settings.shownKey publisher key).length ≤ settings.keySize - 1 :=
      length_shownKey_le hkey key
    rw [heq, length_publishedName htable (Nat.not_le.mp hlong)] at hcut
    exact hlong hcut
  · intro hshort
    have hmin : min key.length (settings.keySize - 1) % 256 = key.length := by
      rw [Nat.min_eq_left hshort]
      exact Nat.mod_eq_of_lt (by omega)
    rw [Publishing.shownKey, hmin, List.take_length, Publishing.translate, publishedName]
    cases hfind : publisher.translations.find? fun row => cString row.1 == key with
    | none => rfl
    | some row =>
        have hlength := (length_translations htable row (List.mem_of_find?_eq_some hfind)).2
        rw [Nat.mod_eq_of_lt hkey]
        exact List.take_of_length_le hlength

omit hkey htable in
theorem shownValue_eq_iff (value : List UInt8) :
    settings.shownValue value = value ↔
      value.length ≤ settings.valueSize - 1 ∧ value.length < 256 := by
  rw [Publishing.shownValue, List.take_eq_self_iff]
  omega

/-- An item that is not cut needs the room that its name needs. -/
theorem keyFits_iff {item : List UInt8} (hwhole : ItemWhole settings item) :
    KeyFits settings publisher topic item ↔ NameFits settings publisher topic item := by
  rw [KeyFits, NameFits, (shownKey_eq_iff hkey htable (itemKey item)).mpr hwhole.key]

theorem shownPublication_eq_iff (item : List UInt8) :
    shownPublication settings publisher topic item = itemPublication publisher topic item ↔
      ItemWhole settings item := by
  rw [shownPublication, itemPublication, Publication.mk.injEq, List.append_cancel_left_eq,
    shownKey_eq_iff hkey htable, shownValue_eq_iff]
  constructor
  · rintro ⟨hname, ⟨hvalue, hcounted⟩, -⟩
    exact ⟨hname, hvalue, hcounted⟩
  · rintro ⟨hname, hvalue, hcounted⟩
    exact ⟨hname, ⟨hvalue, hcounted⟩, rfl, rfl⟩

end Whole

/-! ## How the loop ends -/

variable (settings publisher topic results) in
/-- What is published for pieces, from a call of `publish` on. -/
def attempts : Nat → List (List UInt8) → List (Publication × Bool)
  | _, [] => []
  | k, piece :: more =>
    (shownPublication settings publisher topic piece, results k) :: attempts (k + 1) more

theorem map_fst_attempts (k : Nat) (more : List (List UInt8)) :
    (attempts settings publisher topic results k more).map Prod.fst =
      more.map (shownPublication settings publisher topic) := by
  induction more generalizing k with
  | nil => rfl
  | cons piece more ih => rw [attempts, List.map_cons, List.map_cons, ih]

/-- All attempts have failed. -/
theorem forall_attempts_iff (k : Nat) (more : List (List UInt8)) :
    (∀ attempt ∈ attempts settings publisher topic results k more, attempt.2 = false) ↔
      ∀ j < more.length, results (k + j) = false := by
  induction more generalizing k with
  | nil => exact iff_of_true (fun _ h => absurd h List.not_mem_nil) fun j hj => absurd hj (by simp)
  | cons piece more ih =>
      rw [attempts, List.forall_mem_cons, ih]
      constructor
      · rintro ⟨hfirst, hmore⟩ j hj
        cases j with
        | zero => exact hfirst
        | succ j =>
            rw [← Nat.succ_add_eq_add_succ]
            exact hmore j (Nat.lt_of_succ_lt_succ hj)
      · intro h
        refine ⟨h 0 (Nat.succ_pos _), fun j hj => ?_⟩
        rw [Nat.succ_add_eq_add_succ]
        exact h (j + 1) (Nat.succ_lt_succ hj)

theorem attempts_cons (published : List (Publication × Bool)) (piece : List UInt8)
    (more : List (List UInt8)) :
    published ++ [(shownPublication settings publisher topic piece, results published.length)] ++
        attempts settings publisher topic results (published.length + 1) more =
      published ++ attempts settings publisher topic results published.length (piece :: more) := by
  rw [List.append_assoc, List.singleton_append, attempts]

/-- The loop is left at a key, or it gets through all pieces. -/
theorem publishPieces_cases {turns : Nat} {all : List (List UInt8)}
    {published : List (Publication × Bool)} {translated : Publishing.Translated}
    (h : publishPieces settings publisher topic results turns all published = some translated) :
    (∃ before item after, all = before ++ item :: after ∧ before.length < turns ∧
        (∀ piece ∈ before, Good settings publisher topic piece) ∧ (61 : UInt8) ∈ item ∧
        ¬KeyFits settings publisher topic item ∧
        translated =
          { published := published ++
              attempts settings publisher topic results published.length before
            success := none }) ∨
      (∀ piece ∈ all, Good settings publisher topic piece) ∧
        translated.published =
          published ++ attempts settings publisher topic results published.length all ∧
        translated.success = some (decide (0 < counted translated.published)) := by
  induction turns generalizing all published with
  | zero => exact absurd h (Option.some_ne_none translated).symm
  | succ turns ih =>
      cases all with
      | nil => exact absurd h (Option.some_ne_none translated).symm
      | cons piece more =>
          rw [publishPieces] at h
          by_cases hitem : (61 : UInt8) ∈ piece
          · by_cases hfits : KeyFits settings publisher topic piece
            · rw [if_pos hitem, if_pos hfits] at h
              have hgood : Good settings publisher topic piece := ⟨hitem, hfits⟩
              by_cases hlast : more = []
              · rw [hlast, if_pos rfl] at h
                obtain rfl := Option.some.inj h
                refine Or.inr ⟨fun other hother => ?_, ?_, rfl⟩
                · rw [hlast, List.mem_singleton] at hother
                  rw [hother]
                  exact hgood
                · rw [hlast]
                  rfl
              · rw [if_neg hlast] at h
                rcases ih h with
                  ⟨before, item, after, rfl, hturns, hbefore, hkey, hlong, rfl⟩ |
                    ⟨hall, hpublished, hsuccess⟩
                · refine Or.inl ⟨piece :: before, item, after, rfl, Nat.succ_lt_succ hturns,
                    List.forall_mem_cons.mpr ⟨hgood, hbefore⟩, hkey, hlong, ?_⟩
                  rw [List.length_append, List.length_singleton, attempts_cons]
                · refine Or.inr ⟨List.forall_mem_cons.mpr ⟨hgood, hall⟩, ?_, hsuccess⟩
                  rw [hpublished, List.length_append, List.length_singleton, attempts_cons]
            · rw [if_pos hitem, if_neg hfits] at h
              obtain rfl := Option.some.inj h
              refine Or.inl ⟨[], piece, more, rfl, Nat.succ_pos _,
                fun other hother => absurd hother List.not_mem_nil, hitem, hfits, ?_⟩
              rw [attempts, List.append_nil]
          · rw [if_neg hitem] at h
            rcases ih h with ⟨before, item, after, heq, hturns, hrest⟩ | ⟨hall, -⟩
            · exact Or.inl ⟨before, item, after, heq, Nat.lt_succ_of_lt hturns, hrest⟩
            · exact absurd (hall piece List.mem_cons_self).1 hitem

/-- It gets to an item behind others for each of which a turn is made. -/
theorem publishPieces_append {before rest : List (List UInt8)} (hrest : rest ≠ [])
    (hbefore : ∀ piece ∈ before, Good settings publisher topic piece) (turns : Nat)
    (published : List (Publication × Bool)) :
    publishPieces settings publisher topic results (before.length + turns) (before ++ rest)
        published =
      publishPieces settings publisher topic results turns rest
        (published ++ attempts settings publisher topic results published.length before) := by
  induction before generalizing published with
  | nil => rw [List.length_nil, Nat.zero_add, List.nil_append, attempts, List.append_nil]
  | cons piece before ih =>
      obtain ⟨⟨hitem, hfits⟩, hbefore⟩ := List.forall_mem_cons.mp hbefore
      have hmore : before ++ rest ≠ [] := List.append_ne_nil_of_right_ne_nil before hrest
      rw [List.length_cons, Nat.succ_add, List.cons_append, publishPieces, if_pos hitem,
        if_pos hfits, if_neg hmore, ih hbefore, List.length_append, List.length_singleton,
        attempts_cons]

theorem publishPieces_left {before after : List (List UInt8)} {item : List UInt8} {turns : Nat}
    (hbefore : ∀ piece ∈ before, Good settings publisher topic piece)
    (hitem : (61 : UInt8) ∈ item) (hlong : ¬KeyFits settings publisher topic item)
    (hturns : before.length < turns) :
    publishPieces settings publisher topic results turns (before ++ item :: after) [] =
      some
        { published := attempts settings publisher topic results 0 before, success := none } := by
  obtain ⟨more, rfl⟩ := Nat.exists_eq_add_of_lt hturns
  rw [Nat.add_assoc, publishPieces_append (List.cons_ne_nil _ _) hbefore, publishPieces,
    if_pos hitem, if_neg hlong]
  rfl

/-- It stays at a piece that is no item. -/
theorem publishPieces_stuck {before more : List (List UInt8)} {piece : List UInt8}
    (hbefore : ∀ piece ∈ before, Good settings publisher topic piece)
    (hpiece : (61 : UInt8) ∉ piece) (turns : Nat) (published : List (Publication × Bool)) :
    publishPieces settings publisher topic results turns (before ++ piece :: more) published =
      none := by
  induction turns generalizing before published with
  | zero => rfl
  | succ turns ih =>
      cases before with
      | nil =>
          rw [List.nil_append, publishPieces, if_neg hpiece]
          exact ih (fun other hother => absurd hother List.not_mem_nil) published
      | cons first before =>
          obtain ⟨⟨hitem, hfits⟩, hbefore⟩ := List.forall_mem_cons.mp hbefore
          have hne : before ++ piece :: more ≠ [] :=
            List.append_ne_nil_of_right_ne_nil before (List.cons_ne_nil _ _)
          rw [List.cons_append, publishPieces, if_pos hitem, if_pos hfits, if_neg hne]
          exact ih hbefore _

theorem publishPieces_returns {all : List (List UInt8)} (hne : all ≠ [])
    (hall : ∀ piece ∈ all, Good settings publisher topic piece) :
    ∃ translated, publishPieces settings publisher topic results all.length all [] =
      some translated := by
  obtain ⟨before, last, rfl⟩ : ∃ before last, all = before ++ [last] :=
    ⟨all.dropLast, all.getLast hne, (List.dropLast_append_getLast hne).symm⟩
  obtain ⟨hbefore, hlast⟩ := List.forall_mem_append.mp hall
  obtain ⟨hitem, hfits⟩ := hlast last (List.mem_singleton_self last)
  rw [List.length_append, List.length_singleton,
    publishPieces_append (List.cons_ne_nil _ _) hbefore, publishPieces, if_pos hitem,
    if_pos hfits, if_pos rfl]
  exact ⟨_, rfl⟩

/-! ## The items that are published -/

section SendFrame

variable {frame : Frame}

theorem sendFrame_of_none (h : settings.composeTopic publisher frame.data = none) :
    publisher.sendFrame settings frame = some { published := [], publisher := publisher } := by
  rw [Publisher.sendFrame, h]

theorem sendFrame_translate (h : settings.composeTopic publisher frame.data = some topic)
    (hmode : settings.mode = .mirrorTranslate) :
    publisher.sendFrame settings frame =
      (publishPieces settings publisher topic frame.results frame.turns
          (pieces (framePayload frame)) []).map fun translated =>
        { published := translated.published
          publisher :=
            { publisher with
              lastSendSuccess := translated.success.getD publisher.lastSendSuccess } } := by
  rw [Publisher.sendFrame, h]
  simp only [hmode]
  have hloop : settings.translateItems publisher topic (framePayload frame) frame.results
      frame.turns 0 (counted []) [] = publishPieces settings publisher topic frame.results
        frame.turns (pieces ((framePayload frame).drop 0)) [] :=
    translateItems_eq (Nat.zero_le _)
  rw [List.drop_zero] at hloop
  exact congrArg (Option.map _) hloop

/-- The call leaves the loop at a key, or publishes all pieces. -/
theorem sendFrame_cases {sent : Sent} (h : settings.composeTopic publisher frame.data = some topic)
    (hmode : settings.mode = .mirrorTranslate)
    (hsent : publisher.sendFrame settings frame = some sent) :
    (∃ before item after, pieces (framePayload frame) = before ++ item :: after ∧
        before.length < frame.turns ∧
        (∀ piece ∈ before, Good settings publisher topic piece) ∧ (61 : UInt8) ∈ item ∧
        ¬KeyFits settings publisher topic item ∧
        sent =
          { published := attempts settings publisher topic frame.results 0 before
            publisher := publisher }) ∨
      (∀ piece ∈ pieces (framePayload frame), Good settings publisher topic piece) ∧
        sent.published = attempts settings publisher topic frame.results 0
          (pieces (framePayload frame)) ∧
        sent.publisher.lastSendSuccess = decide (0 < counted sent.published) := by
  rw [sendFrame_translate h hmode, Option.map_eq_some_iff] at hsent
  obtain ⟨translated, hloop, rfl⟩ := hsent
  rcases publishPieces_cases hloop with
    ⟨before, item, after, hpieces, hturns, hbefore, hitem, hlong, rfl⟩ |
      ⟨hall, hpublished, hsuccess⟩
  · exact Or.inl ⟨before, item, after, hpieces, hturns, hbefore, hitem, hlong, rfl⟩
  · refine Or.inr ⟨hall, hpublished, ?_⟩
    rw [hsuccess]
    rfl

/-- The call does not return. -/
theorem sendFrame_stuck (h : settings.composeTopic publisher frame.data = some topic)
    (hmode : settings.mode = .mirrorTranslate) {before more : List (List UInt8)}
    {piece : List UInt8} (hpieces : pieces (framePayload frame) = before ++ piece :: more)
    (hbefore : ∀ piece ∈ before, Good settings publisher topic piece)
    (hpiece : (61 : UInt8) ∉ piece) : publisher.sendFrame settings frame = none := by
  rw [sendFrame_translate h hmode, hpieces, publishPieces_stuck hbefore hpiece]
  rfl

theorem items_of_good {all : List (List UInt8)} {payload : List UInt8}
    (hpieces : pieces payload = all)
    (hall : ∀ piece ∈ all, Good settings publisher topic piece) : items payload = all := by
  rw [items, hpieces, List.filter_eq_self]
  exact fun piece hpiece => decide_eq_true (hall piece hpiece).1

/-- A call that has published something for each item has met nothing else. -/
theorem good_of_sent (hmode : settings.mode = .mirrorTranslate) {sent : Sent}
    (htopic : settings.composeTopic publisher frame.data = some topic)
    (hsent : publisher.sendFrame settings frame = some sent)
    (hlength : sent.published.length = (items (framePayload frame)).length) :
    (∀ piece ∈ pieces (framePayload frame), Good settings publisher topic piece) ∧
      sent.published.map Prod.fst =
        (items (framePayload frame)).map (shownPublication settings publisher topic) := by
  rcases sendFrame_cases htopic hmode hsent with
    ⟨before, item, after, hpieces, -, hbefore, hitem, -, rfl⟩ | ⟨hall, hpublished, -⟩
  · have hfilter : before.filter (fun piece => decide ((61 : UInt8) ∈ piece)) = before :=
      List.filter_eq_self.mpr fun piece hpiece => decide_eq_true (hbefore piece hpiece).1
    have hattempts : (attempts settings publisher topic frame.results 0 before).length =
        before.length := by
      rw [← List.length_map Prod.fst, map_fst_attempts, List.length_map]
    rw [items, hpieces, List.filter_append, hfilter, List.filter_cons,
      if_pos (decide_eq_true hitem), List.length_append, List.length_cons] at hlength
    simp only [hattempts] at hlength
    omega
  · refine ⟨hall, ?_⟩
    rw [hpublished, map_fst_attempts, items_of_good rfl hall]

/-- If there is nothing but items, it returns. -/
theorem sent_of_good (hmode : settings.mode = .mirrorTranslate)
    (htopic : settings.composeTopic publisher frame.data = some topic)
    (hturns : frame.turns = (pieces (framePayload frame)).length)
    (hall : ∀ piece ∈ pieces (framePayload frame), Good settings publisher topic piece) :
    ∃ sent, publisher.sendFrame settings frame = some sent ∧
      sent.published.map Prod.fst =
        (items (framePayload frame)).map (shownPublication settings publisher topic) := by
  obtain ⟨translated, hreturns⟩ : ∃ translated,
      publishPieces settings publisher topic frame.results
        (pieces (framePayload frame)).length (pieces (framePayload frame)) [] =
          some translated := publishPieces_returns (List.splitOnP_ne_nil _ _) hall
  refine ⟨_, by rw [sendFrame_translate htopic hmode, hturns, hreturns]; rfl, ?_⟩
  rcases publishPieces_cases hreturns with
    ⟨before, item, after, hpieces, -, -, -, hlong, -⟩ | ⟨-, hpublished, -⟩
  · have hmem : item ∈ pieces (framePayload frame) := by
      rw [hpieces]
      exact List.mem_append_right _ List.mem_cons_self
    exact absurd (hall item hmem).2 hlong
  · simp only [hpublished, List.nil_append, List.length_nil, map_fst_attempts,
      items_of_good rfl hall]

end SendFrame

/-- `send_frame` returns and has published each item exactly if there is nothing but items that
are published whole. -/
theorem publishesItems_iff (settings : Publishing) (hmode : settings.mode = .mirrorTranslate)
    (hkey : settings.keySize < 256) (publisher : Publisher)
    (added : List (List UInt8 × List UInt8))
    (htable : publisher.translations = translationsBehind settings added) (frame : Frame) :
    PublishesItems settings publisher frame ↔ Translatable settings publisher frame := by
  rw [PublishesItems, Translatable]
  cases htopic : settings.composeTopic publisher frame.data with
  | none =>
      have hsends (turns : Nat) : publisher.sendFrame settings { frame with turns := turns } =
          some { published := [], publisher := publisher } := sendFrame_of_none htopic
      simp only [hsends, Option.getD_none, Option.some.injEq]
      constructor
      · rintro ⟨turns, sent, rfl, hpublished⟩ piece hpiece
        have hnone := List.map_eq_nil_iff.mp hpublished.symm
        simpa using List.filter_eq_nil_iff.mp hnone piece hpiece
      · intro h
        have hnone : items (framePayload frame) = [] :=
          List.filter_eq_nil_iff.mpr fun piece hpiece => by simpa using h piece hpiece
        exact ⟨0, _, rfl, by rw [hnone]; rfl⟩
  | some topic =>
      simp only [Option.getD_some]
      have hwhole (item : List UInt8) :
          shownPublication settings publisher topic item = itemPublication publisher topic item ↔
            ItemWhole settings item := shownPublication_eq_iff hkey htable item
      constructor
      · rintro ⟨turns, sent, hsent, hpublished⟩
        have hlength : sent.published.length = (items (framePayload frame)).length := by
          have hlengths := congrArg List.length hpublished
          rwa [List.length_map, List.length_map] at hlengths
        obtain ⟨hall, hshown⟩ := @good_of_sent _ _ _ { frame with turns := turns } hmode sent htopic
          hsent hlength
        have hsame := List.map_inj_left.mp (hshown.symm.trans hpublished)
        have hitems : items (framePayload frame) = pieces (framePayload frame) :=
          items_of_good rfl hall
        intro piece hpiece
        obtain ⟨hitem, hfits⟩ := hall piece hpiece
        have hsize := (hwhole piece).mp (hsame piece (hitems ▸ hpiece))
        exact ⟨hitem, (keyFits_iff hkey htable hsize).mp hfits, hsize⟩
      · intro h
        have hall : ∀ piece ∈ pieces (framePayload frame),
            Good settings publisher topic piece := by
          intro piece hpiece
          obtain ⟨hitem, hfits, hsize⟩ := h piece hpiece
          exact ⟨hitem, (keyFits_iff hkey htable hsize).mpr hfits⟩
        obtain ⟨sent, hsent, hshown⟩ := @sent_of_good _ _ _
          { frame with turns := (pieces (framePayload frame)).length } hmode htopic rfl hall
        refine ⟨_, sent, hsent, hshown.trans (List.map_inj_left.mpr fun item hitem => ?_)⟩
        exact (hwhole item).mpr (h item (List.mem_of_mem_filter hitem)).2.2

/-- A client with room for topics of 50 characters, which writes a number as its last digit. -/
def translating : Publishing where
  build := defaultBuild
  mode := .mirrorTranslate
  topicSize := 50
  uint8toa := fun n => [48 + n % 10]

/-- The frame that the device 4 sends to the device 5 with a payload. -/
def frameWith (payload : List UInt8) : Frame where
  data := Memory.store (fun _ => 0) 0
    ([5, 2, UInt8.ofNat (payload.length + 6), 0, 4] ++ payload)
  length := payload.length + 6
  results := fun _ => true

/-- `P=4,T=2` -/
theorem publishesItems_iff_two :
    PublishesItems translating {} (frameWith [80, 61, 52, 44, 84, 61, 50]) ↔
      Translatable translating {} (frameWith [80, 61, 52, 44, 84, 61, 50]) :=
  publishesItems_iff translating rfl (by decide) {} [] rfl
    (frameWith [80, 61, 52, 44, 84, 61, 50])

/-- With the terminator behind it, the loop stays at the empty piece that comes last. -/
theorem terminator_hangs :
    (∀ turns, ({} : Publisher).sendFrame translating
        { frameWith [80, 61, 52, 0] with turns := turns } = none) ∧
      ¬PublishesItems translating {} (frameWith [80, 61, 52, 0]) := by
  have htopic : translating.composeTopic {} (frameWith [80, 61, 52, 0]).data =
      some [112, 106, 111, 110, 47, 100, 101, 118, 105, 99, 101, 52, 47, 111, 117, 116, 112, 117,
        116] := by decide +kernel
  have hpieces : pieces (framePayload (frameWith [80, 61, 52, 0])) =
      [[80, 61, 52]] ++ [] :: [] := by decide +kernel
  have hfirst : ∀ piece ∈ [[80, 61, 52]], Good translating {} [112, 106, 111, 110, 47, 100, 101,
      118, 105, 99, 101, 52, 47, 111, 117, 116, 112, 117, 116] piece := by decide +kernel
  have hnone : ∀ turns, ({} : Publisher).sendFrame translating
      { frameWith [80, 61, 52, 0] with turns := turns } = none := by
    intro turns
    exact sendFrame_stuck
      (show translating.composeTopic {} ({ frameWith [80, 61, 52, 0] with turns := turns } :
        Frame).data = _ from htopic) rfl hpieces hfirst List.not_mem_nil
  refine ⟨hnone, ?_⟩
  rintro ⟨turns, sent, hsent, -⟩
  exact absurd ((hnone turns).symm.trans hsent) (Option.some_ne_none sent).symm

end Pjon.Proofs.Publishing
