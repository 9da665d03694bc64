import Pjon.Spec.Devices
/-!
# When the table of ESPNOW follows the devices

The search for a node compares the MAC address with that of the first one, and a node that is found
keeps its MAC address.  So every entry is the first that was heard of its device, and a device is
overlooked that has the MAC address of the first one.
-/

namespace Pjon.Proofs.Devices

open Pjon.Lib Pjon.Model Pjon.Model.ESPNOW Pjon.Spec

/-! ## Searching -/

section Searching

variable {α : Type} [DecidableEq α] {strategy : Strategy α}

/-- A search with the MAC address of the first node ends at it. -/
theorem find_of_first {node : Node α} (hfirst : strategy.nodes.head? = some node) (id : UInt8) :
    strategy.findRemoteNode id node.mac = some 0 := by
  rw [Strategy.findRemoteNode, hfirst]
  cases hnodes : strategy.nodes with
  | nil =>
      rw [hnodes] at hfirst
      exact absurd hfirst.symm (Option.some_ne_none node)
  | cons other nodes =>
      rw [Option.map_some, BEq.rfl, List.findIdx?_cons, Bool.or_true, if_pos rfl]

/-- Any other search goes by the id. -/
theorem find_of_other {id : UInt8} {mac : α} (hid : id ≠ notAssigned)
    (hmac : ∀ node ∈ strategy.nodes.head?, node.mac ≠ mac) :
    strategy.findRemoteNode id mac = strategy.nodes.findIdx? fun node => node.id == id := by
  have hother : ((strategy.nodes.head?.map fun node => node.mac) == some mac) = false := by
    rw [beq_eq_false_iff_ne]
    cases hhead : strategy.nodes.head? with
    | none => exact (Option.some_ne_none mac).symm
    | some node => exact fun heq => hmac node hhead (Option.some.inj heq)
  rw [Strategy.findRemoteNode, hother]
  simp only [bne_iff_ne.mpr hid, Bool.and_true, Bool.or_false]

end Searching

variable {settings : Settings} {strategy : Strategy Mac} {history : List (UInt8 × Mac)}

/-- Where a frame goes in which this MAC address is found. -/
def route (strategy : Strategy Mac) (id : UInt8) (mac : Mac) : Option Mac :=
  (strategy.findRemoteNode id mac).bind fun pos => strategy.nodes[pos]?.map fun node => node.mac

theorem sendFrame_route {id : UInt8} {data : Memory} {length : Nat} (hid : id ≠ 0)
    (hlength : 0 < length) (hdata : data 0 = id) :
    ((strategy.sendFrame settings data length).map fun sending => sending.destination) =
      some (route strategy id (Tools.parseRx settings.build data).mac) := by
  simp only [Strategy.sendFrame, if_pos hlength, hdata, if_neg hid, route]
  cases strategy.findRemoteNode id (Tools.parseRx settings.build data).mac <;> rfl

/-! ## Frames that name no device -/

section Frames

variable {payloads : Mac → Prop}

theorem mac_parseRx (settings : Settings) (data : Memory) :
    (Tools.parseRx settings.build data).mac =
      if settings.build.includeMac then macField settings data else noMac := rfl

/-- What the parser finds in a frame that names none. -/
theorem mac_of_namesNone {data : Memory} (h : NamesNone settings payloads data) :
    (Tools.parseRx settings.build data).mac = noMac ∨
      settings.build.includeMac = true ∧
        payloads (Tools.parseRx settings.build data).mac := by
  rw [mac_parseRx]
  rw [NamesNone] at h
  by_cases hmac : settings.build.includeMac = true
  · rw [if_pos hmac]
    by_cases hbit : has (data 1) macBit = true
    · rw [if_pos hbit] at h
      exact Or.inl h
    · rw [if_neg hbit] at h
      exact Or.inr ⟨hmac, h⟩
  · rw [if_neg hmac]
    exact Or.inl rfl

/-- A frame for a device, with six bytes behind its meta-data. -/
def frameWith (settings : Settings) (id header : UInt8) (mac : Mac) : Memory :=
  (Memory.store (fun _ => 0) (Tools.macIndex settings.build header) mac.toList).store 0
    [id, header]

theorem frameWith_id (id header : UInt8) (mac : Mac) :
    frameWith settings id header mac 0 = id := rfl

theorem frameWith_header (id header : UInt8) (mac : Mac) :
    frameWith settings id header mac 1 = header := rfl

theorem two_le_macIndex (b : Build) (header : UInt8) : 2 ≤ Tools.macIndex b header := by
  simp only [Tools.macIndex, Tools.portIndex, Tools.idIndex, Tools.txIndex, Tools.hopsIndex,
    Tools.txBusIndex, Tools.busIndex]
  split_ifs <;> omega

theorem macField_frameWith (id header : UInt8) (mac : Mac) :
    macField settings (frameWith settings id header mac) = mac := by
  have hindex := two_le_macIndex settings.build header
  rw [macField, frameWith_header]
  apply Memory.vector_of_holds
  apply Memory.holds_congr _ (Memory.holds_store (fun _ => 0) _ mac.toList)
  intro k _
  have hbehind : 0 + [id, header].length ≤ Tools.macIndex settings.build header + k := by
    rw [List.length_cons, List.length_singleton]
    omega
  exact (Memory.store_outside _ 0 [id, header] (Or.inr hbehind)).symm

theorem namesNone_zero (id : UInt8) :
    NamesNone settings payloads (frameWith settings id macBit noMac) := by
  rw [NamesNone, frameWith_header, if_pos (by decide), macField_frameWith]

theorem namesNone_payload {mac : Mac} (h : payloads mac) (id : UInt8) :
    NamesNone settings payloads (frameWith settings id 0 mac) := by
  rw [NamesNone, frameWith_header, if_neg (by decide), macField_frameWith]
  exact h

end Frames

/-! ## Receptions -/

theorem receive_fromDevice {reception : PacketReception} (h : reception.FromDevice settings)
    (hauto : strategy.autoRegistration = true) :
    reception.receive settings strategy =
      match strategy.findRemoteNode (reception.senderId settings) reception.packet.mac with
      | none =>
        strategy.addNode settings (reception.senderId settings) reception.packet.mac
      | some _ => strategy := by
  obtain ⟨bytes, hbytes⟩ := Option.isSome_iff_exists.mp h.received
  have hframe : reception.frame = bytes := by rw [PacketReception.frame, hbytes, Option.getD_some]
  have hlong : 4 < bytes.length := hframe ▸ h.long
  have hsender : (Tools.parseTx settings.build (reception.data.store 0 bytes)).id =
      reception.senderId settings := by rw [PacketReception.senderId, hframe]
  cases hfind : strategy.findRemoteNode (reception.senderId settings) reception.packet.mac <;>
    simp only [PacketReception.receive, Strategy.receiveFrame, Option.bind_some, hbytes,
      Option.map_some, Strategy.autoregisterSender, hauto, hlong, decide_true, Bool.and_self,
      if_true, hsender, if_neg h.positive, hfind]

/-- What the strategy has made of the devices that were heard. -/
structure Tracks (strategy : Strategy Mac) (history : List (UInt8 × Mac)) : Prop where
  auto : strategy.autoRegistration = true
  named : ∀ e ∈ history, e.1 ≠ 0 ∧ e.1 ≠ notAssigned
  distinct : (strategy.nodes.map Node.id).Nodup
  devices : ∀ id, id ∈ strategy.nodes.map Node.id ↔ id ∈ history.map Prod.fst
  heard : ∀ node ∈ strategy.nodes, (node.id, node.mac) ∈ history
  front : (strategy.nodes.head?.map fun node => (node.id, node.mac)) = history.head?

theorem Tracks.first (h : Tracks strategy history) {node : Node Mac}
    (hnode : strategy.nodes.head? = some node) : history.head? = some (node.id, node.mac) := by
  rw [← h.front, hnode, Option.map_some]

/-- A node is found under its id. -/
theorem Tracks.find (h : Tracks strategy history) {id : UInt8} (hid : id ∈ history.map Prod.fst) :
    ∃ pos node, (strategy.nodes.findIdx? fun node => node.id == id) = some pos ∧
      strategy.nodes[pos]? = some node ∧ node.id = id := by
  obtain ⟨found, hfound, hkey⟩ := List.mem_map.mp ((h.devices id).mpr hid)
  cases hfind : strategy.nodes.findIdx? fun node => node.id == id with
  | none =>
      have hnot := List.findIdx?_eq_none_iff.mp hfind found hfound
      exact absurd hkey (beq_eq_false_iff_ne.mp hnot)
  | some pos =>
      obtain ⟨hpos, htest, -⟩ := List.findIdx?_eq_some_iff_getElem.mp hfind
      exact ⟨pos, strategy.nodes[pos], rfl, List.getElem?_eq_getElem hpos, beq_iff_eq.mp htest⟩

/-- Under steady devices a frame goes where the device was heard last, unless the MAC address of the
first one is found in it. -/
theorem Tracks.route_eq (h : Tracks strategy history) (hsteady : SteadyDevices history)
    {id : UInt8} (hid : id ∈ history.map Prod.fst) {mac : Mac}
    (hown : ∀ e₀ ∈ history.head?, e₀.2 = mac → e₀.1 = id) :
    route strategy id mac = Registry.last history id := by
  obtain ⟨address, hlast, hmem⟩ := Registry.last_of_mem hid
  obtain ⟨pos, node, hfind, hnode, hkey⟩ := h.find hid
  have hnot := (h.named _ hmem).2
  have hheard : ∀ node : Node Mac, node ∈ strategy.nodes → node.id = id →
      node.mac = address := by
    intro other hother hsame
    exact hsteady.keeps _ (h.heard other hother) _ hmem hsame
  rw [hlast, route]
  by_cases hfront : ∃ first, strategy.nodes.head? = some first ∧ first.mac = mac
  · obtain ⟨first, hfirst, hmac⟩ := hfront
    have hat : strategy.nodes[0]? = some first := by rw [← List.head?_eq_getElem?, hfirst]
    rw [← hmac, find_of_first hfirst, Option.bind_some, hat, Option.map_some,
      hheard first (List.mem_of_getElem? hat) (hown _ (h.first hfirst) hmac)]
  · have hother : ∀ first ∈ strategy.nodes.head?, first.mac ≠ mac :=
      fun first hfirst hmac => hfront ⟨first, hfirst, hmac⟩
    rw [find_of_other hnot hother, hfind, Option.bind_some, hnode, Option.map_some,
      hheard node (List.mem_of_getElem? hnode) hkey]

/-- Only a device that is alone may have a MAC address that is all zeros, and be the first. -/
theorem own_of_zero (hsteady : SteadyDevices history) {id : UInt8}
    (hid : id ∈ history.map Prod.fst) : ∀ e₀ ∈ history.head?, e₀.2 = noMac → e₀.1 = id := by
  obtain ⟨e, he, rfl⟩ := List.mem_map.mp hid
  intro e₀ he₀ hzero
  by_contra hother
  exact (hsteady.first e₀ he₀ e he (Ne.symm hother)).2 hzero

/-- A device that is known is found, whatever MAC address it is looked for with. -/
theorem Tracks.known (h : Tracks strategy history) {id : UInt8} (hid : id ∈ history.map Prod.fst)
    (hassigned : id ≠ notAssigned) (mac : Mac) :
    ∃ pos, strategy.findRemoteNode id mac = some pos := by
  by_cases hfirst : ∃ node, strategy.nodes.head? = some node ∧ node.mac = mac
  · obtain ⟨node, hnode, rfl⟩ := hfirst
    exact ⟨0, find_of_first hnode id⟩
  · obtain ⟨pos, -, hfind, -, -⟩ := h.find hid
    refine ⟨pos, ?_⟩
    rw [find_of_other hassigned fun node hnode hmac => hfirst ⟨node, hnode, hmac⟩, hfind]

theorem steady_of_concat {e : UInt8 × Mac} (h : SteadyDevices (history ++ [e])) :
    SteadyDevices history where
  keeps := fun a ha b hb =>
    h.keeps a (List.mem_append_left _ ha) b (List.mem_append_left _ hb)
  first := by
    intro a ha b hb
    have hhead : (history ++ [e]).head? = some a := by
      rw [List.head?_append, Option.mem_def.mp ha]
      rfl
    exact h.first a hhead b (List.mem_append_left _ hb)

/-- Under steady devices only a new one is not found. -/
theorem Tracks.find_eq_none_iff (h : Tracks strategy history) {e : UInt8 × Mac}
    (hassigned : e.1 ≠ notAssigned) (hsteady : SteadyDevices (history ++ [e])) :
    strategy.findRemoteNode e.1 e.2 = none ↔ e.1 ∉ history.map Prod.fst := by
  constructor
  · intro hnone hid
    obtain ⟨pos, hfind⟩ := h.known hid hassigned e.2
    rw [hnone] at hfind
    exact absurd hfind.symm (Option.some_ne_none pos)
  · intro hid
    rw [find_of_other hassigned, List.findIdx?_eq_none_iff]
    · intro node hnode
      rw [beq_eq_false_iff_ne]
      rintro heq
      exact hid ((h.devices _).mp (List.mem_map.mpr ⟨node, hnode, heq⟩))
    · intro node hnode hmac
      have hfirst := h.first hnode
      have hhead : (history ++ [e]).head? = some (node.id, node.mac) := by
        rw [List.head?_append, hfirst]
        rfl
      have hother : e.1 ≠ node.id := by
        intro heq
        have hmem : (node.id, node.mac) ∈ history := List.mem_of_mem_head? hfirst
        exact hid (List.mem_map.mpr ⟨_, hmem, heq.symm⟩)
      exact (hsteady.first _ hhead e (List.mem_append_right _ (List.mem_singleton_self e)) hother).1
        hmac.symm

section Payloads

variable {payloads : Mac → Prop}

theorem apart_of_concat {e : UInt8 × Mac} (h : PayloadsApart settings payloads (history ++ [e])) :
    PayloadsApart settings payloads history := by
  intro hmac a ha b hb
  have hhead : (history ++ [e]).head? = some a := by
    rw [List.head?_append, Option.mem_def.mp ha]
    rfl
  exact h hmac a hhead b (List.mem_append_left _ hb)

theorem follows_of_steady (h : Tracks strategy history) (hsteady : SteadyDevices history)
    (hapart : PayloadsApart settings payloads history) :
    FollowsDevices settings payloads strategy history where
  distinct := h.distinct
  devices := h.devices
  reached := by
    intro id hid data length hlength hdata hnone
    obtain ⟨e, he, rfl⟩ := List.mem_map.mp hid
    rw [sendFrame_route (h.named e he).1 hlength hdata]
    congr 1
    apply h.route_eq hsteady hid
    rcases mac_of_namesNone hnone with hzero | ⟨hmac, hpayload⟩
    · rw [hzero]
      exact own_of_zero hsteady hid
    · intro e₀ he₀ hfound
      by_contra hother
      rw [← hfound] at hpayload
      exact hapart hmac e₀ he₀ e he (Ne.symm hother) hpayload

theorem route_of_follows (h : FollowsDevices settings payloads strategy history) {id : UInt8}
    (hid : id ∈ history.map Prod.fst) (hpositive : id ≠ 0) :
    route strategy id noMac = Registry.last history id := by
  have hfound : (Tools.parseRx settings.build (frameWith settings id macBit noMac)).mac =
      noMac := by
    rw [mac_parseRx, macField_frameWith, ite_self]
  have hreached := h.reached id hid (frameWith settings id macBit noMac) 1 Nat.one_pos
    (frameWith_id id macBit noMac) (namesNone_zero id)
  rw [sendFrame_route hpositive Nat.one_pos (frameWith_id id macBit noMac), hfound] at hreached
  exact Option.some.inj hreached

/-- A payload that begins with the MAC address of the first device takes the frame there. -/
theorem apart_of_follows (h : Tracks strategy history) (hsteady : SteadyDevices history)
    (hfollows : FollowsDevices settings payloads strategy history) :
    PayloadsApart settings payloads history := by
  intro hmac e₀ he₀ e he hother hpayload
  have hid : e.1 ∈ history.map Prod.fst := List.mem_map.mpr ⟨e, he, rfl⟩
  obtain ⟨node, hnode, rfl⟩ : ∃ node, strategy.nodes.head? = some node ∧
      (node.id, node.mac) = e₀ := by
    have hfront := h.front
    rw [Option.mem_def.mp he₀, Option.map_eq_some_iff] at hfront
    exact hfront
  have hat : strategy.nodes[0]? = some node := by rw [← List.head?_eq_getElem?, hnode]
  have hfound : (Tools.parseRx settings.build (frameWith settings e.1 0 node.mac)).mac =
      node.mac := by
    rw [mac_parseRx, if_pos hmac, macField_frameWith]
  have hreached := hfollows.reached e.1 hid (frameWith settings e.1 0 node.mac) 1 Nat.one_pos
    (frameWith_id e.1 0 node.mac) (namesNone_payload hpayload e.1)
  obtain ⟨address, hlast, hmem⟩ := Registry.last_of_mem hid
  rw [sendFrame_route (h.named e he).1 Nat.one_pos (frameWith_id e.1 0 node.mac), hfound, route,
    find_of_first hnode, Option.bind_some, hat, Option.map_some, hlast, Option.some.injEq,
    Option.some.injEq] at hreached
  exact (hsteady.first _ he₀ _ hmem hother).1 hreached.symm

end Payloads

/-! ## Steps -/

/-- One more reception. -/
structure Step (settings : Settings) (strategy : Strategy Mac) (history : List (UInt8 × Mac))
    (reception : PacketReception) : Prop where
  tracks : Tracks strategy history
  device : reception.FromDevice settings
  room : ((history.map Prod.fst ++ [reception.senderId settings]).toFinset).card ≤
    settings.maxRemoteNodes

namespace Step

variable {reception : PacketReception} {payloads : Mac → Prop}

/-- A device that is found changes nothing. -/
theorem receive_of_found (h : Step settings strategy history reception) {pos : Nat}
    (hfind : strategy.findRemoteNode (reception.senderId settings) reception.packet.mac =
      some pos) :
    reception.receive settings strategy = strategy := by
  rw [receive_fromDevice h.device h.tracks.auto, hfind]

/-- There is room for a new device. -/
theorem receive_of_new (h : Step settings strategy history reception)
    (hnone : strategy.findRemoteNode (reception.senderId settings) reception.packet.mac = none)
    (hnew : reception.senderId settings ∉ history.map Prod.fst) :
    reception.receive settings strategy =
      { strategy with nodes := strategy.nodes ++
          [{ id := reception.senderId settings, mac := reception.packet.mac }] } := by
  have hcard : strategy.nodes.length = (history.map Prod.fst).toFinset.card := by
    have hsame : (strategy.nodes.map Node.id).toFinset = (history.map Prod.fst).toFinset := by
      ext id
      rw [List.mem_toFinset, List.mem_toFinset]
      exact h.tracks.devices id
    rw [← hsame, List.toFinset_card_of_nodup h.tracks.distinct, List.length_map]
  have hmore : ((history.map Prod.fst ++ [reception.senderId settings]).toFinset).card =
      (history.map Prod.fst).toFinset.card + 1 := by
    rw [List.toFinset_append, Finset.union_comm, List.toFinset_cons, List.toFinset_nil,
      insert_empty_eq, Finset.singleton_union, Finset.card_insert_of_notMem]
    exact fun hmem => hnew (List.mem_toFinset.mp hmem)
  have hroom := h.room
  rw [receive_fromDevice h.device h.tracks.auto, hnone]
  simp only [Strategy.addNode]
  rw [if_neg (by omega)]

theorem tracks_of_steady (h : Step settings strategy history reception)
    (hsteady : SteadyDevices
      (history ++ [(reception.senderId settings, reception.packet.mac)])) :
    Tracks (reception.receive settings strategy)
      (history ++ [(reception.senderId settings, reception.packet.mac)]) := by
  have hnamed : ∀ e ∈ history ++ [(reception.senderId settings, reception.packet.mac)],
      e.1 ≠ 0 ∧ e.1 ≠ notAssigned := by
    rw [List.forall_mem_append, List.forall_mem_singleton]
    exact ⟨h.tracks.named, h.device.positive, h.device.assigned⟩
  have hkeys : (history ++ [(reception.senderId settings, reception.packet.mac)]).map Prod.fst =
      history.map Prod.fst ++ [reception.senderId settings] := List.map_append
  have hnew := h.tracks.find_eq_none_iff h.device.assigned hsteady
  cases hfind : strategy.findRemoteNode (reception.senderId settings) reception.packet.mac with
  | some pos =>
      have hold : reception.senderId settings ∈ history.map Prod.fst := by
        by_contra hid
        rw [hnew.mpr hid] at hfind
        exact absurd hfind.symm (Option.some_ne_none pos)
      rw [h.receive_of_found hfind]
      refine ⟨h.tracks.auto, hnamed, h.tracks.distinct, fun id => ?_, fun node hnode => ?_, ?_⟩
      · rw [h.tracks.devices, hkeys, List.mem_append, List.mem_singleton]
        exact ⟨Or.inl, fun hid => hid.elim (fun hmem => hmem) fun heq => heq ▸ hold⟩
      · exact List.mem_append_left _ (h.tracks.heard node hnode)
      · obtain ⟨e, he, -⟩ := List.mem_map.mp hold
        rw [h.tracks.front, List.head?_append_of_ne_nil _ (List.ne_nil_of_mem he)]
  | none =>
      have hid := hnew.mp hfind
      rw [h.receive_of_new hfind hid]
      refine ⟨h.tracks.auto, hnamed, ?_, fun id => ?_, fun node hnode => ?_, ?_⟩
      · rw [List.map_append, List.map_singleton]
        refine List.nodup_append.mpr ⟨h.tracks.distinct, List.nodup_singleton _, ?_⟩
        rintro a ha b hb rfl
        rw [List.mem_singleton.mp hb] at ha
        exact hid ((h.tracks.devices _).mp ha)
      · rw [List.map_append, List.map_singleton, hkeys, List.mem_append, List.mem_append,
          h.tracks.devices]
      · rcases List.mem_append.mp hnode with hold | hlast
        · exact List.mem_append_left _ (h.tracks.heard node hold)
        · rw [List.mem_singleton.mp hlast]
          exact List.mem_append_right _ (List.mem_singleton_self _)
      · have hfront := h.tracks.front
        rw [List.head?_append, List.head?_append, ← hfront]
        cases strategy.nodes.head? <;> rfl

/-- If frames go to the devices, then one that was heard before keeps its MAC address. -/
theorem keeps_of_follows (h : Step settings strategy history reception)
    (hsteady : SteadyDevices history)
    (hfollows : FollowsDevices settings payloads (reception.receive settings strategy)
      (history ++ [(reception.senderId settings, reception.packet.mac)]))
    {e : UInt8 × Mac} (he : e ∈ history) (hid : e.1 = reception.senderId settings) :
    e.2 = reception.packet.mac := by
  have hmem : reception.senderId settings ∈ history.map Prod.fst :=
    List.mem_map.mpr ⟨e, he, hid⟩
  obtain ⟨pos, hfind⟩ := h.tracks.known hmem h.device.assigned reception.packet.mac
  rw [h.receive_of_found hfind] at hfollows
  have hroute := route_of_follows hfollows
    (by rw [List.map_append]; exact List.mem_append_left _ hmem) h.device.positive
  rw [h.tracks.route_eq hsteady hmem (own_of_zero hsteady hmem), Registry.last_concat,
    if_pos rfl] at hroute
  obtain ⟨mac, hlast, hheard⟩ := Registry.last_of_mem hmem
  rw [hlast] at hroute
  rw [hsteady.keeps e he _ hheard hid]
  exact Option.some.inj hroute

/-- If there is an entry for a new device, then it was not found. -/
theorem new_of_follows (h : Step settings strategy history reception)
    (hfollows : FollowsDevices settings payloads (reception.receive settings strategy)
      (history ++ [(reception.senderId settings, reception.packet.mac)]))
    (hnew : reception.senderId settings ∉ history.map Prod.fst) :
    strategy.findRemoteNode (reception.senderId settings) reception.packet.mac = none := by
  cases hfind : strategy.findRemoteNode (reception.senderId settings) reception.packet.mac with
  | none => rfl
  | some pos =>
      rw [h.receive_of_found hfind] at hfollows
      refine absurd ((h.tracks.devices _).mp ((hfollows.devices _).mpr ?_)) hnew
      rw [List.map_append]
      exact List.mem_append_right _ (List.mem_singleton_self _)

/-- If frames go to the devices, then the first one has a MAC address of its own. -/
theorem first_of_follows (h : Step settings strategy history reception)
    (hsteady : SteadyDevices history)
    (hfollows : FollowsDevices settings payloads (reception.receive settings strategy)
      (history ++ [(reception.senderId settings, reception.packet.mac)]))
    {e₀ : UInt8 × Mac} (hhead : history.head? = some e₀)
    (hother : reception.senderId settings ≠ e₀.1) :
    reception.packet.mac ≠ e₀.2 ∧ e₀.2 ≠ noMac := by
  by_cases hmem : reception.senderId settings ∈ history.map Prod.fst
  · obtain ⟨e, he, hid⟩ := List.mem_map.mp hmem
    rw [← h.keeps_of_follows hsteady hfollows he hid]
    exact hsteady.first e₀ hhead e he (hid ▸ hother)
  · have hnone := h.new_of_follows hfollows hmem
    obtain ⟨node, hnode, rfl⟩ : ∃ node, strategy.nodes.head? = some node ∧
        (node.id, node.mac) = e₀ := by
      have hfront := h.tracks.front
      rw [hhead, Option.map_eq_some_iff] at hfront
      exact hfront
    have hown : reception.packet.mac ≠ node.mac := by
      intro heq
      rw [heq, find_of_first hnode] at hnone
      exact absurd hnone (Option.some_ne_none 0)
    refine ⟨hown, fun hzero => ?_⟩
    rw [h.receive_of_new hnone hmem] at hfollows
    have hroute := route_of_follows hfollows
      (by rw [List.map_append]; exact List.mem_append_right _ (List.mem_singleton_self _))
      h.device.positive
    have hfirst : List.head? (strategy.nodes ++
        [{ id := reception.senderId settings, mac := reception.packet.mac }]) = some node := by
      rw [List.head?_append, hnode]
      rfl
    have hat := hfirst
    rw [List.head?_eq_getElem?] at hat
    rw [Registry.last_concat, if_pos rfl, route, ← show node.mac = noMac from hzero,
      find_of_first hfirst, Option.bind_some] at hroute
    simp only [hat, Option.map_some] at hroute
    exact hown (Option.some.inj hroute).symm

theorem steady_of_follows (h : Step settings strategy history reception)
    (hsteady : SteadyDevices history)
    (hfollows : FollowsDevices settings payloads (reception.receive settings strategy)
      (history ++ [(reception.senderId settings, reception.packet.mac)])) :
    SteadyDevices (history ++ [(reception.senderId settings, reception.packet.mac)]) where
  keeps := by
    intro a ha b hb hid
    rcases List.mem_append.mp ha with ha | ha <;> rcases List.mem_append.mp hb with hb | hb
    · exact hsteady.keeps a ha b hb hid
    · rw [List.mem_singleton.mp hb] at hid ⊢
      exact h.keeps_of_follows hsteady hfollows ha hid
    · rw [List.mem_singleton.mp ha] at hid ⊢
      exact (h.keeps_of_follows hsteady hfollows hb hid.symm).symm
    · rw [List.mem_singleton.mp ha, List.mem_singleton.mp hb]
  first := by
    intro e₀ hhead e he hother
    rw [List.head?_append, Option.mem_def] at hhead
    cases hfirst : history.head? with
    | none =>
        rw [hfirst] at hhead
        rw [List.head?_eq_none_iff.mp hfirst, List.nil_append] at he
        rw [List.mem_singleton.mp he, ← Option.some.inj hhead] at hother
        exact absurd rfl hother
    | some front =>
        rw [hfirst, Option.some_or] at hhead
        obtain rfl := Option.some.inj hhead
        rcases List.mem_append.mp he with he | he
        · exact hsteady.first front hfirst e he hother
        · rw [List.mem_singleton.mp he] at hother ⊢
          exact h.first_of_follows hsteady hfollows hfirst hother

end Step

/-! ## Runs -/

variable (settings) in
/-- Receptions from devices for which there is room. -/
structure Admissible (receptions : List PacketReception) : Prop where
  devices : ∀ reception ∈ receptions, reception.FromDevice settings
  room : ((heardDevices settings receptions).map Prod.fst).toFinset.card ≤ settings.maxRemoteNodes

theorem heardDevices_concat (receptions : List PacketReception) (reception : PacketReception) :
    heardDevices settings (receptions ++ [reception]) =
      heardDevices settings receptions ++
        [(reception.senderId settings, reception.packet.mac)] := List.map_append

theorem strategyBehind_concat (receptions : List PacketReception) (reception : PacketReception) :
    strategyBehind settings (receptions ++ [reception]) =
      reception.receive settings (strategyBehind settings receptions) := Run.final_append _ _ _ _

theorem Admissible.of_concat {receptions : List PacketReception} {reception : PacketReception}
    (h : Admissible settings (receptions ++ [reception])) : Admissible settings receptions where
  devices := fun r hr => h.devices r (List.mem_append_left _ hr)
  room := by
    refine le_trans (Finset.card_le_card fun id hid => ?_) h.room
    rw [heardDevices_concat, List.map_append, List.toFinset_append]
    exact Finset.mem_union_left _ hid

theorem Admissible.step {receptions : List PacketReception} {reception : PacketReception}
    (h : Admissible settings (receptions ++ [reception]))
    (htracks : Tracks (strategyBehind settings receptions) (heardDevices settings receptions)) :
    Step settings (strategyBehind settings receptions) (heardDevices settings receptions)
      reception where
  tracks := htracks
  device := h.devices reception (List.mem_append_right _ (List.mem_singleton_self _))
  room := by
    have hroom := h.room
    rw [heardDevices_concat, List.map_append] at hroom
    exact hroom

theorem tracks_behind {receptions : List PacketReception} (h : Admissible settings receptions)
    (hsteady : SteadyDevices (heardDevices settings receptions)) :
    Tracks (strategyBehind settings receptions) (heardDevices settings receptions) := by
  induction receptions using List.reverseRecOn with
  | nil =>
      exact
        { auto := rfl, named := fun e he => absurd he List.not_mem_nil, distinct := List.nodup_nil
          devices := fun id => Iff.rfl, heard := fun node hnode => absurd hnode List.not_mem_nil
          front := rfl }
  | append_singleton receptions reception ih =>
      rw [heardDevices_concat] at hsteady
      have hstep := h.step (ih h.of_concat (steady_of_concat hsteady))
      rw [heardDevices_concat, strategyBehind_concat]
      exact hstep.tracks_of_steady hsteady

/-- After every reception the table follows the devices exactly if they are steady and no payload
begins with the MAC address of the first one. -/
theorem followsDevices_iff (settings : Settings) (payloads : Mac → Prop)
    (receptions : List PacketReception)
    (hdevices : ∀ reception ∈ receptions, reception.FromDevice settings)
    (hroom : ((heardDevices settings receptions).map Prod.fst).toFinset.card ≤
      settings.maxRemoteNodes) :
    (∀ before, before <+: receptions →
        FollowsDevices settings payloads (strategyBehind settings before)
          (heardDevices settings before)) ↔
      SteadyDevices (heardDevices settings receptions) ∧
        PayloadsApart settings payloads (heardDevices settings receptions) := by
  have hadmissible : Admissible settings receptions := ⟨hdevices, hroom⟩
  clear hdevices hroom
  induction receptions using List.reverseRecOn with
  | nil =>
      have hsteady : SteadyDevices (heardDevices settings []) :=
        ⟨by simp [heardDevices], by simp [heardDevices]⟩
      have hapart : PayloadsApart settings payloads (heardDevices settings []) := by
        intro _ e₀ he₀
        exact absurd he₀ (by simp [heardDevices])
      refine iff_of_true (fun before hbefore => ?_) ⟨hsteady, hapart⟩
      rw [List.prefix_nil.mp hbefore]
      exact follows_of_steady (tracks_behind hadmissible hsteady) hsteady hapart
  | append_singleton receptions reception ih =>
      have hiff := ih hadmissible.of_concat
      constructor
      · intro hfollows
        have hsteady := (hiff.mp fun before hbefore =>
          hfollows before (hbefore.trans (List.prefix_append _ _))).1
        have hstep := hadmissible.step (tracks_behind hadmissible.of_concat hsteady)
        have hlast := hfollows _ (List.prefix_refl _)
        have hnext : SteadyDevices (heardDevices settings (receptions ++ [reception])) := by
          rw [heardDevices_concat, strategyBehind_concat] at hlast
          rw [heardDevices_concat]
          exact hstep.steady_of_follows hsteady hlast
        exact ⟨hnext, apart_of_follows (tracks_behind hadmissible hnext) hnext hlast⟩
      · rintro ⟨hsteady, hapart⟩ before hbefore
        have hold := hsteady
        have hrest := hapart
        rw [heardDevices_concat] at hold hrest
        rcases List.prefix_concat_iff.mp hbefore with rfl | hprefix
        · exact follows_of_steady (tracks_behind hadmissible hsteady) hsteady hapart
        · exact hiff.mpr ⟨steady_of_concat hold, apart_of_concat hrest⟩ before hprefix

def macOf (k : UInt8) : Mac := Vector.replicate 6 k

/-- A device says something. -/
def said (id : UInt8) (mac : Mac) : PacketReception where
  packet := { mac := mac, data := [0xE8, 0xF8, 44, 2, 6, 0, id, 0, 0x08, 0xE9] }
  maxLength := 50

/-- The program includes the MAC addresses, and has the default sizes. -/
def espnowSettings : Settings where
  build := { defaultBuild with includeMac := true }

theorem first_fromDevice : (said 5 (macOf 1)).FromDevice espnowSettings :=
  ⟨by decide, by decide, by decide, by decide⟩

theorem followsDevices_iff_two :
    (∀ before, before <+: [said 5 (macOf 1), said 6 (macOf 2)] →
        FollowsDevices espnowSettings (fun payload => payload ≠ macOf 1)
          (strategyBehind espnowSettings before) (heardDevices espnowSettings before)) ↔
      SteadyDevices (heardDevices espnowSettings [said 5 (macOf 1), said 6 (macOf 2)]) ∧
        PayloadsApart espnowSettings (fun payload => payload ≠ macOf 1)
          (heardDevices espnowSettings [said 5 (macOf 1), said 6 (macOf 2)]) :=
  followsDevices_iff espnowSettings _ [said 5 (macOf 1), said 6 (macOf 2)]
    (List.forall_mem_cons.mpr ⟨first_fromDevice,
      List.forall_mem_singleton.mpr ⟨by decide, by decide, by decide, by decide⟩⟩)
    (by decide)

/-- A device that comes back with another MAC address is sent to at the old one. -/
theorem old_mac_kept :
    (∀ reception ∈ [said 5 (macOf 1), said 5 (macOf 2)],
        reception.FromDevice espnowSettings) ∧
      ((heardDevices espnowSettings [said 5 (macOf 1), said 5 (macOf 2)]).map
        Prod.fst).toFinset.card ≤ espnowSettings.maxRemoteNodes ∧
      (((strategyBehind espnowSettings [said 5 (macOf 1), said 5 (macOf 2)]).sendFrame
        espnowSettings (frameWith espnowSettings 5 macBit noMac) 20).map
          fun sending => sending.destination) = some (some (macOf 1)) ∧
      ¬FollowsDevices espnowSettings (fun _ => True)
        (strategyBehind espnowSettings [said 5 (macOf 1), said 5 (macOf 2)])
        (heardDevices espnowSettings [said 5 (macOf 1), said 5 (macOf 2)]) := by
  have hsent : (((strategyBehind espnowSettings [said 5 (macOf 1), said 5 (macOf 2)]).sendFrame
      espnowSettings (frameWith espnowSettings 5 macBit noMac) 20).map
        fun sending => sending.destination) = some (some (macOf 1)) := by decide
  refine ⟨?_, by decide, hsent, fun hfollows => ?_⟩
  · rw [List.forall_mem_cons, List.forall_mem_singleton]
    exact ⟨first_fromDevice, by decide, by decide, by decide, by decide⟩
  · have hreached := hfollows.reached 5 (by decide) (frameWith espnowSettings 5 macBit noMac) 20
      (by decide) (frameWith_id 5 macBit noMac) (namesNone_zero 5)
    rw [hsent] at hreached
    exact absurd hreached (by decide)

end Pjon.Proofs.Devices
