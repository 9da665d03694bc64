import Pjon.Proofs.Destinations
import Pjon.Spec.Routes
import Mathlib.Data.List.Find
/-!
# The search of a router

The cursor of `find_bus_with_id` counts the attached buses and the rows behind them, as a search
through one list would.  It is a `uint8_t`, and row `i` of a router with `n` buses sends it to
`n + i + 1`: from place 255 on it starts over, and behind place 254 it takes itself for finished.
-/

namespace Pjon.Proofs.Routes

open Pjon.Lib Pjon.Model Pjon.Spec Pjon.Proofs.Destinations

variable {r : RouterBuild} {n : Nat} (x : Router r n) (busId : Vector UInt8 4)

/-! ## One list -/

/-- The attached buses as rows. -/
def attachedRoutes : List (Route n) :=
  (List.finRange n).map fun i => ⟨x.busId i, i⟩

def Leads (route : Route n) : Bool := busId == route.busId

theorem length_attachedRoutes : (attachedRoutes x).length = n := by
  rw [attachedRoutes, List.length_map, List.length_finRange]

theorem filter_routes :
    ((attachedRoutes x ++ x.table).filter (Leads busId)).map Route.via = routesTo x busId := by
  rw [List.filter_append, List.map_append, attachedRoutes, List.filter_map, List.map_map, routesTo]
  congr 1
  exact List.map_id _

/-- A search over indices is one over a list from a place on. -/
theorem first_eq_find?_drop (p : Fin n → Bool) (c : Nat) :
    Search.first p c = ((List.finRange n).drop c).find? p := by
  have hfront :
      ((List.finRange n).take c).find? (fun i : Fin n => decide (c ≤ i) && p i) = none := by
    rw [List.find?_eq_none]
    intro i hi
    obtain ⟨k, hk, rfl⟩ := List.mem_take_iff_getElem.mp hi
    rw [List.getElem_finRange, Bool.and_eq_true, decide_eq_true_eq]
    intro h
    have hle := h.1
    simp only [Fin.val_cast] at hle
    omega
  have hback : ((List.finRange n).drop c).find? (fun i : Fin n => decide (c ≤ i) && p i) =
      ((List.finRange n).drop c).find? p := by
    refine List.find?_congr fun i hi => ?_
    obtain ⟨k, hk, rfl⟩ := List.mem_drop_iff_getElem.mp hi
    rw [List.getElem_finRange, decide_eq_true, Bool.true_and]
    simp
  calc Search.first p c = ((List.finRange n).take c ++ (List.finRange n).drop c).find?
        fun i : Fin n => decide (c ≤ i) && p i := by rw [List.take_append_drop, Search.first]
    _ = ((List.finRange n).drop c).find? p := by
      rw [List.find?_append, hfront, Option.none_or, hback]

theorem next_attached (c : Nat) :
    Cursor.next (Leads busId) (attachedRoutes x) c =
      (Search.first (fun i => busId == x.busId i) c).map fun i => (⟨x.busId i, i⟩, i.val) := by
  have hrows : (attachedRoutes x).zipIdx =
      (List.finRange n).map fun i => ((⟨x.busId i, i⟩ : Route n), i.val) := by
    apply List.ext_getElem (by simp [attachedRoutes])
    intro k h₁ h₂
    simp [attachedRoutes, List.getElem_zipIdx]
  rw [Cursor.next, hrows, ← List.map_drop, List.find?_map, first_eq_find?_drop]
  rfl

/-! ## The cursor -/

/-- The results of a search of the router and of one through a list are the same, and so are the
cursors they leave. -/
def SameAnswer (found : Option (Fin n) × UInt8) (other : Option (Fin n) × Nat) : Prop :=
  found.1 = other.1 ∧ found.2.toNat = other.2

/-- What a search through one list returns for the entry that it found. -/
def answerOf : Option (Route n × Nat) → Option (Fin n) × Nat
  | some entry => (some entry.1.via, (entry.2 + 1) % 256)
  | none => (none, 255)

theorem wrapping_eq (l : List (Route n)) (c : Nat) :
    Cursor.wrapping (Leads busId) Route.via 255 l c =
      if c = 255 then (none, 255) else answerOf (Cursor.next (Leads busId) l c) := by
  rw [Cursor.wrapping]
  cases Cursor.next (Leads busId) l c <;> rfl

/-- `find_bus_with_id` returns the marker with every cursor that it leaves without a result. -/
theorem sameAnswer_marked {found : Option (Fin n) × UInt8} {entry : Option (Route n × Nat)}
    (h : SameAnswer found (answerOf entry)) :
    SameAnswer (if found.1 = none then (none, notAssigned) else found) (answerOf entry) := by
  split_ifs with hnone
  · cases entry with
    | none => exact ⟨rfl, rfl⟩
    | some entry => exact absurd (h.1.symm.trans hnone) (Option.some_ne_none _)
  · exact h

/-- The rows, as they stand in a list behind the attached buses. -/
theorem findBusInTable_eq (hn : n < 255) {c : UInt8} (hc : n ≤ c.toNat) :
    SameAnswer (x.findBusInTable busId c)
      (answerOf ((Cursor.next (Leads busId) x.table (c.toNat - n)).map
        fun entry => (entry.1, n + entry.2))) := by
  have hstart : (c - UInt8.ofNat n).toNat = c.toNat - n := by
    have hcount : (UInt8.ofNat n).toNat = n := by
      rw [UInt8.toNat_ofNat']
      omega
    rw [UInt8.toNat_sub_of_le _ _ (UInt8.le_iff_toNat_le.mpr (by omega)), hcount]
  rw [Router.findBusInTable, hstart]
  show SameAnswer (match Cursor.next (Leads busId) x.table (c.toNat - n) with
    | some route => (some route.1.via, UInt8.ofNat (n + route.2 + 1))
    | none => (none, notAssigned)) _
  cases Cursor.next (Leads busId) x.table (c.toNat - n) with
  | none => exact ⟨rfl, rfl⟩
  | some entry => exact ⟨rfl, UInt8.toNat_ofNat'⟩

/-- The attached buses, as they stand in a list of their own. -/
theorem findAttached_eq (c : UInt8) :
    SameAnswer (x.findAttachedBusWithId busId c)
      (answerOf (Cursor.next (Leads busId) (attachedRoutes x) c.toNat)) := by
  rw [next_attached, Switch.findAttachedBusWithId]
  cases Search.first (fun i => busId == x.busId i) c.toNat with
  | none => exact ⟨rfl, rfl⟩
  | some i => exact ⟨rfl, UInt8.toNat_ofNat'⟩

theorem next_attached_of_le {c : Nat} (hc : n ≤ c) :
    Cursor.next (Leads busId) (attachedRoutes x) c = none := by
  rw [Cursor.next, List.drop_eq_nil_of_le (by rwa [List.length_zipIdx, length_attachedRoutes])]
  rfl

/-- An attached bus that is found is the answer. -/
theorem findBusWithId_of_attached {c : UInt8} {entry : Route n × Nat}
    (hnext : Cursor.next (Leads busId) (attachedRoutes x) c.toNat = some entry) :
    SameAnswer (x.findBusWithId busId c) (answerOf (some entry)) := by
  have hc : c.toNat < n := by
    by_contra hle
    rw [next_attached_of_le x busId (Nat.le_of_not_lt hle)] at hnext
    exact Option.some_ne_none entry hnext.symm
  have hattached := findAttached_eq x busId c
  rw [hnext] at hattached
  have hfound : (x.findAttachedBusWithId busId c).1 ≠ none := by
    rw [hattached.1]
    exact Option.some_ne_none _
  rw [Router.findBusWithId, if_pos hc]
  simp only [hfound, if_false, false_and]
  exact hattached

/-- Behind the last attached bus the table is next, unless the count of the buses is the
marker. -/
theorem findBusWithId_of_not_attached {c : UInt8} (hc : c.toNat < n)
    (hnext : Cursor.next (Leads busId) (attachedRoutes x) c.toNat = none) :
    x.findBusWithId busId c =
      let found :=
        if n ≤ (UInt8.ofNat n).toNat ∧ UInt8.ofNat n ≠ notAssigned then
          x.findBusInTable busId (UInt8.ofNat n)
        else (none, UInt8.ofNat n)
      if found.1 = none then (none, notAssigned) else found := by
  have hattached := findAttached_eq x busId c
  rw [hnext] at hattached
  have hnone : (x.findAttachedBusWithId busId c).1 = none := hattached.1
  rw [Router.findBusWithId, if_pos hc]
  simp only [hnone, if_true, true_and]

/-- The marker is no place of the search. -/
theorem findBusWithId_notAssigned : x.findBusWithId busId notAssigned = (none, notAssigned) := by
  have hc : ¬notAssigned.toNat < n := Nat.not_lt.mpr (Nat.le_of_lt_succ x.busCount_lt)
  rw [Router.findBusWithId, if_neg hc]
  simp only [ne_eq, not_true_eq_false, and_false, if_false, if_true]

/-- With fewer than 255 buses the router searches one list of attached buses and rows. -/
theorem findBusWithId_eq (hn : n < 255) (c : UInt8) :
    SameAnswer (x.findBusWithId busId c)
      (Cursor.wrapping (Leads busId) Route.via 255 (attachedRoutes x ++ x.table) c.toNat) := by
  have hcount : (UInt8.ofNat n).toNat = n := by
    rw [UInt8.toNat_ofNat']
    omega
  have hmarker : UInt8.ofNat n ≠ notAssigned := by
    intro h
    have heq : n = 255 := by rw [← hcount, h]; rfl
    omega
  rw [wrapping_eq, Cursor.next_append, length_attachedRoutes]
  by_cases hc : c.toNat < n
  · have hne : c.toNat ≠ 255 := by omega
    rw [if_neg hne]
    cases hnext : Cursor.next (Leads busId) (attachedRoutes x) c.toNat with
    | some entry => exact findBusWithId_of_attached x busId hnext
    | none =>
        have htable := findBusInTable_eq x busId hn (show n ≤ (UInt8.ofNat n).toNat by omega)
        rw [hcount, Nat.sub_self] at htable
        rw [findBusWithId_of_not_attached x busId hc hnext, Option.none_or,
          Nat.sub_eq_zero_of_le hc.le]
        simp only [if_pos (show n ≤ (UInt8.ofNat n).toNat ∧ UInt8.ofNat n ≠ notAssigned from
          ⟨hcount.ge, hmarker⟩)]
        exact sameAnswer_marked htable
  · rw [next_attached_of_le x busId (by omega), Option.none_or]
    by_cases hover : c = notAssigned
    · have hend : c.toNat = 255 := congrArg UInt8.toNat hover
      rw [if_pos hend, hover, findBusWithId_notAssigned]
      exact ⟨rfl, rfl⟩
    · have hne : c.toNat ≠ 255 := fun h => hover (UInt8.toNat_inj.mp h)
      rw [Router.findBusWithId, if_neg hc]
      simp only [hne, if_false, ne_eq, hover, not_false_eq_true, and_true,
        show n ≤ c.toNat by omega, if_true]
      exact sameAnswer_marked (findBusInTable_eq x busId hn (by omega))

/-- With 255 buses the end of the attached buses is taken for the end of the search. -/
theorem findBusWithId_eq_full (hn : n = 255) (c : UInt8) :
    SameAnswer (x.findBusWithId busId c)
      (Cursor.wrapping (Leads busId) Route.via 255 (attachedRoutes x) c.toNat) := by
  have hmarker : UInt8.ofNat n = notAssigned := by rw [hn]; rfl
  rw [wrapping_eq]
  by_cases hc : c.toNat < n
  · have hne : c.toNat ≠ 255 := by omega
    rw [if_neg hne]
    cases hnext : Cursor.next (Leads busId) (attachedRoutes x) c.toNat with
    | some entry => exact findBusWithId_of_attached x busId hnext
    | none =>
        rw [findBusWithId_of_not_attached x busId hc hnext]
        simp only [hmarker, ne_eq, not_true_eq_false, and_false, if_false, if_true]
        exact ⟨rfl, rfl⟩
  · have hover : c = notAssigned := by
      have hlt := c.toNat_lt
      exact UInt8.toNat_inj.mp (show c.toNat = 255 by omega)
    have hend : c.toNat = 255 := congrArg UInt8.toNat hover
    rw [if_pos hend, hover, findBusWithId_notAssigned]
    exact ⟨rfl, rfl⟩

/-! ## All routes, each once -/

/-- A place of the list that a search of the router can be behind. -/
theorem attachedRoutes_short {i : Nat} {route : Route n}
    (h : (attachedRoutes x)[i]? = some route) : i < 255 := by
  have hi := (List.getElem?_eq_some_iff.mp h).1
  rw [length_attachedRoutes] at hi
  have hlt := x.busCount_lt
  omega

/-- The rows with the id stand where the cursor can be behind them. -/
def WithinReach : Prop :=
  ∀ (i : Nat) (h : i < x.table.length), (x.table.get ⟨i, h⟩).busId = busId → n + i < 255

variable {x busId}

theorem withinReach_iff : WithinReach x busId ↔
    ∀ i route, (attachedRoutes x ++ x.table)[i]? = some route → Leads busId route = true →
      i < 255 := by
  constructor
  · intro h i route hat hleads
    by_cases hi : i < n
    · rw [List.getElem?_append_left (by rwa [length_attachedRoutes])] at hat
      exact attachedRoutes_short x hat
    · rw [List.getElem?_append_right (by rw [length_attachedRoutes]; omega),
        length_attachedRoutes] at hat
      obtain ⟨hlt, hrow⟩ := List.getElem?_eq_some_iff.mp hat
      have hid : route.busId = busId := (beq_iff_eq.mp hleads).symm
      have hreach := h (i - n) hlt ((congrArg Route.busId hrow).trans hid)
      omega
  · intro h i hi hid
    refine h (n + i) (x.table.get ⟨i, hi⟩) ?_ (beq_iff_eq.mpr hid.symm)
    rw [List.getElem?_append_right (by rw [length_attachedRoutes]; omega), length_attachedRoutes,
      Nat.add_sub_cancel_left]
    exact List.getElem?_eq_getElem hi

/-- The results of `find_bus_with_id` are the routes if and only if no row is out of reach. -/
theorem findBusWithId_enumerates_iff (hrows : x.table.length < 256) :
    Cursor.Enumerates (x.findBusWithId busId) 0 (routesTo x busId) ↔ WithinReach x busId := by
  have hlt := x.busCount_lt
  by_cases hn : n < 255
  · have hsame (k : Nat) : Cursor.answers (x.findBusWithId busId) 0 k = Cursor.answers
        (Cursor.wrapping (Leads busId) Route.via 255 (attachedRoutes x ++ x.table)) 0 k := by
      have hstep : ∀ (c : UInt8) (d : Nat), c.toNat = d →
          SameAnswer (x.findBusWithId busId c)
            (Cursor.wrapping (Leads busId) Route.via 255 (attachedRoutes x ++ x.table) d) := by
        rintro c _ rfl
        exact findBusWithId_eq x busId hn c
      exact Cursor.answers_rel hstep rfl k
    rw [withinReach_iff, ← Cursor.enumerates_iff (by omega), filter_routes]
    · exact forall_congr' fun k => by rw [hsame]
    · rw [List.length_append, length_attachedRoutes]
      omega
  · have hn : n = 255 := by omega
    have hanswers (k : Nat) : Cursor.answers (x.findBusWithId busId) 0 k =
        (((attachedRoutes x).filter (Leads busId)).map Route.via)[k]? := by
      have hstep : ∀ (c : UInt8) (d : Nat), c.toNat = d →
          SameAnswer (x.findBusWithId busId c)
            (Cursor.wrapping (Leads busId) Route.via 255 (attachedRoutes x) d) := by
        rintro c _ rfl
        exact findBusWithId_eq_full x busId hn c
      rw [Cursor.answers_rel hstep rfl k]
      exact Cursor.answers_of_short (fun i b h _ => attachedRoutes_short x h) (Nat.zero_le _) k
    have hroutes : routesTo x busId = ((attachedRoutes x).filter (Leads busId)).map Route.via ++
        (x.table.filter (Leads busId)).map Route.via := by
      rw [← filter_routes, List.filter_append, List.map_append]
    constructor
    · intro h
      have hle := Cursor.length_le_of_enumerates h
        ((hanswers _).trans (List.getElem?_eq_none_iff.mpr (Nat.le_refl _)))
      rw [hroutes, List.length_append, List.length_map, List.length_map] at hle
      have hnone : x.table.filter (Leads busId) = [] := List.eq_nil_of_length_eq_zero (by omega)
      intro i hi hid
      exact absurd (beq_iff_eq.mpr hid.symm)
        (List.filter_eq_nil_iff.mp hnone _ (List.get_mem x.table ⟨i, hi⟩))
    · intro h k
      have hnone : x.table.filter (Leads busId) = [] := by
        rw [List.filter_eq_nil_iff]
        intro route hroute hleads
        obtain ⟨i, rfl⟩ := List.mem_iff_get.mp hroute
        have hreach := h i i.isLt (beq_iff_eq.mp hleads).symm
        omega
      rw [hanswers, hroutes, hnone, List.map_nil, List.append_nil]

/-! ## The end of the loop -/

/-- The search moves on with every turn, whatever has happened to the attached buses. -/
theorem cursor_grows (h : WithinReach x busId) {y : Router r n} (htable : y.table = x.table)
    (c : UInt8) : (y.findBusWithId busId c).2 = notAssigned ∨
      c.toNat < (y.findBusWithId busId c).2.toNat := by
  have hlt := y.busCount_lt
  have hover (found : UInt8) (hfound : found.toNat = 255) : found = notAssigned :=
    UInt8.toNat_inj.mp hfound
  by_cases hn : n < 255
  · have hy : WithinReach y busId := by
      unfold WithinReach
      rw [htable]
      exact h
    have hsame := (findBusWithId_eq y busId hn c).2
    rw [hsame]
    exact (Cursor.wrapping_grows (withinReach_iff.mp hy) c.toNat).imp_left
      fun heq => hover _ (hsame.trans heq)
  · have hsame := (findBusWithId_eq_full y busId (by omega) c).2
    rw [hsame]
    exact (Cursor.wrapping_grows (fun i b hat _ => attachedRoutes_short y hat) c.toNat).imp_left
      fun heq => hover _ (hsame.trans heq)

section Loop

variable {gateway : Option (Fin n)}
  {send : Nat → Option (Fin n) → Bool → Router r n → Routing (Router r n) n}

/-- A turn leaves the table as it is, as far as sending does. -/
theorem table_searchTurn
    (hsend : ∀ turn bus ackSent state, (send turn bus ackSent state).state.table = state.table)
    (find : Router r n → UInt8 → Option (Fin n) × UInt8) (turn : Nat) (startSearch : UInt8)
    (routing : Routing (Router r n) n) :
    (searchTurn find gateway send turn startSearch routing).state.table = routing.state.table :=
  hsend turn _ routing.ackSent routing.state

/-- A search that moves on is over after as many turns as the cursor has values to take. -/
theorem loopEnds (h : WithinReach x busId)
    (hsend : ∀ turn bus ackSent state, (send turn bus ackSent state).state.table = state.table)
    (left : Nat) :
    ∀ (turn : Nat) (startSearch : UInt8) (routing : Routing (Router r n) n),
      routing.state.table = x.table → 256 ≤ startSearch.toNat + left →
      LoopEnds (fun state => state.findBusWithId busId) gateway send turn startSearch routing := by
  induction left with
  | zero =>
      intro turn startSearch routing _ hleft
      have hlt := startSearch.toNat_lt
      omega
  | succ left ih =>
      intro turn startSearch routing htable hleft
      rcases cursor_grows h htable startSearch with hover | hgrows
      · exact .last hover
      · exact .more (ih _ _ _ ((table_searchTurn hsend _ _ _ _).trans htable) (by omega))

/-- A loop that comes to an end does so within the turns that it is given here. -/
theorem searchLoop_enough (h : WithinReach x busId)
    (hsend : ∀ turn bus ackSent state, (send turn bus ackSent state).state.table = state.table)
    (more left : Nat) :
    ∀ (turn : Nat) (startSearch : UInt8) (routing : Routing (Router r n) n),
      routing.state.table = x.table → 256 ≤ startSearch.toNat + left →
      searchLoop (fun state => state.findBusWithId busId) gateway send (left + more) turn
        startSearch routing =
      searchLoop (fun state => state.findBusWithId busId) gateway send left turn startSearch
        routing := by
  induction left with
  | zero =>
      intro turn startSearch routing _ hleft
      have hlt := startSearch.toNat_lt
      omega
  | succ left ih =>
      intro turn startSearch routing htable hleft
      rw [show left + 1 + more = left + more + 1 by omega, searchLoop, searchLoop]
      rcases cursor_grows h htable startSearch with hover | hgrows
      · rw [if_pos hover, if_pos hover]
      · have hnext := ih (turn + 1) _ (searchTurn (fun state => state.findBusWithId busId) gateway
          send turn startSearch routing) ((table_searchTurn hsend _ _ _ _).trans htable)
          (show 256 ≤ (routing.state.findBusWithId busId startSearch).2.toNat + left by omega)
        split_ifs
        · rfl
        · exact hnext

end Loop

/-- `forward_packet` does not change the table. -/
theorem table_forwardPacket (payload : Payload) (currentBus : Fin n) (info : PacketInfo)
    (surroundings : Surroundings) (bus : Option (Fin n)) (ackSent : Bool) (state : Router r n) :
    (forwardPacket (Router.sendPacket payload currentBus info surroundings) bus currentBus ackSent
      state).state.table = state.table := by
  cases bus with
  | none => rfl
  | some i =>
      rw [forwardPacket]
      split_ifs <;> rfl

/-- The receiver function does not stop for want of turns. -/
theorem receiverFunction_enough (currentBus : Fin n) (payload : Payload) (info : PacketInfo)
    (surroundings : Nat → Surroundings) (h : WithinReach x (targetOf info)) (more : Nat) :
    searchLoop (fun state => state.findBusWithId (targetOf info)) x.defaultGateway
        (fun turn receiverBus => forwardPacket
          (Router.sendPacket payload currentBus info (surroundings turn)) receiverBus currentBus)
        (256 + more) 0 0 { state := x } =
      x.receiverFunction currentBus payload info surroundings :=
  searchLoop_enough h (fun _ bus ackSent state => table_forwardPacket payload currentBus info _ bus
    ackSent state) more 256 0 0 _ rfl (Nat.le_refl _)

/-- The search comes to an end and to each route once if and only if no row with the id stands at
place 255 or behind it, counted with the attached buses. -/
theorem searchesRight_iff (x : Router r n) (busId : Vector UInt8 4) (hrows : x.table.length < 256) :
    SearchesRight x busId ↔
      ∀ i : Fin x.table.length, (x.table.get i).busId = busId → n + i < 255 := by
  have hreach : (∀ i : Fin x.table.length, (x.table.get i).busId = busId → n + i < 255) ↔
      WithinReach x busId := ⟨fun h i hi => h ⟨i, hi⟩, fun h i => h i i.isLt⟩
  rw [hreach]
  constructor
  · exact fun h => (findBusWithId_enumerates_iff hrows).mp h.finds
  · intro h
    refine ⟨fun currentBus payload info surroundings _ => ?_,
      (findBusWithId_enumerates_iff hrows).mpr h⟩
    exact loopEnds h (fun _ bus ackSent state => table_forwardPacket payload currentBus info _ bus
      ackSent state) 256 0 0 _ rfl (Nat.le_refl _)

/-! ## Rows at the end of the table -/

/-- A packet from the bus that the search leads back to, from the start each time. -/
theorem not_loopEnds {currentBus : Fin n} (hfind : x.findBusWithId busId 0 = (some currentBus, 0))
    (payload : Payload) (info : PacketInfo) (surroundings : Nat → Surroundings) (turn : Nat)
    (startSearch : UInt8) (routing : Routing (Router r n) n) (hstart : startSearch = 0)
    (hstate : routing.state = x) :
    ¬LoopEnds (fun state : Router r n => state.findBusWithId busId) x.defaultGateway
      (fun turn receiverBus => forwardPacket
        (Router.sendPacket payload currentBus info (surroundings turn)) receiverBus currentBus)
      turn startSearch routing := by
  intro hends
  induction hends with
  | last h =>
      rw [hstart, hstate, hfind] at h
      have hne : (0 : UInt8) ≠ notAssigned := by decide
      exact hne h
  | @more turn startSearch routing _ ih =>
      apply ih
      · rw [hstart, hstate, hfind]
      · show (searchTurn _ _ _ _ _ _).state = x
        rw [searchTurn, hstart, hstate, hfind]
        show (forwardPacket _ (some currentBus) currentBus _ routing.state).state = x
        rw [forwardPacket, if_pos rfl]
        exact hstate

/-- A program with a long table. -/
def longTable : RouterBuild := { routing with tableSize := 255 }

def nearBus : Fin 2 := ⟨0, Nat.zero_lt_two⟩

def otherBus : Fin 2 := ⟨1, Nat.one_lt_two⟩

/-- Two buses, a row for bus 0.0.0.9 and as many others in front of it. -/
def routerWithRow (others : Nat) : Router longTable 2 where
  buses := #v[{ config := modeBit, tx := { busId := busIdOf 1 }, router := true },
    { config := modeBit, tx := { busId := busIdOf 2 }, router := true }]
  busCount_lt := twoBuses_lt
  table := List.replicate others ⟨busIdOf 3, otherBus⟩ ++ [⟨busIdOf 9, nearBus⟩]

theorem searchesRight_iff_firstRow : SearchesRight (routerWithRow 0) (busIdOf 9) ↔
    ∀ i : Fin (routerWithRow 0).table.length,
      ((routerWithRow 0).table.get i).busId = busIdOf 9 → 2 + i.val < 255 :=
  searchesRight_iff (routerWithRow 0) (busIdOf 9) (by decide)

/-- The row at place 255 sends the search to its start. -/
theorem lastRow_searched_forever :
    (routerWithRow 253).table.length ≤ longTable.tableSize ∧
      ¬SearchesRight (routerWithRow 253) (busIdOf 9) := by
  refine ⟨by decide +kernel, fun hright => ?_⟩
  have hfind : (routerWithRow 253).findBusWithId (busIdOf 9) 0 = (some nearBus, 0) := by
    decide +kernel
  exact not_loopEnds hfind (.single 65) { header := modeBit, rx := { busId := busIdOf 9 } }
    (fun _ => {}) 0 0 _ rfl rfl (hright.ends _ (.single 65) _ (fun _ => {}) (by decide))

end Pjon.Proofs.Routes
