import Pjon.Proofs.Relaying
import Mathlib.Data.List.ProdSigma
/-!
# A packet finds its way

From each segment one port leads on, and what its router transmits is the packet one hop further,
one step closer.  So there is one frame on the way as long as there is a way to go.
-/

namespace Pjon.Proofs.Internetwork

open Pjon.Lib Pjon.Model Pjon.Spec Pjon.Spec.Internetwork
open Pjon.Proofs.Canonical Pjon.Proofs.Relaying Pjon.Proofs.Destinations Pjon.Proofs.Switch

variable {σ : Type} {r : RouterBuild} {w : Internetwork σ} {via : w.Directions} {way : Set σ}
  {home : σ} {distance : σ → Nat} {target : Vector UInt8 4}

theorem mem_ports (p : w.Port) : p ∈ w.ports :=
  List.mem_sigma.mpr ⟨List.mem_finRange p.1, List.mem_finRange p.2⟩

theorem nodup_ports : w.ports.Nodup :=
  (List.nodup_finRange _).sigma fun _ => List.nodup_finRange _

/-! ## One step -/

section Step

variable {moment : w.Moment r} {t : w.Travelling} (h : Routable r t.frame target)

include h

section Port

variable {p : w.Port} (hready : Ready (moment.router p) target (via p.1))

include hready

/-- What the router of a port transmits on one of its buses. -/
theorem queued_after (k : Fin (w.buses p.1))
    (hhops : via p.1 = some k ∧ k ≠ p.2 → hopCount t.frame < r.maxHops) :
    queued ((moment.router p).bus k) ((after moment t p).bus k) =
      if via p.1 = some k ∧ k ≠ p.2 then [withHops t.frame (hopCount t.frame + 1)] else [] := by
  have hdelivery : Routable r (Delivery.mk t.frame (moment.batch p)).bytes target := h
  exact queued_received hready hdelivery k hhops

/-- A port that does not lead on is the end of the way. -/
theorem passedOn_of_not_leadsOn (hp : ¬LeadsOn via p) : passedOn moment t p = [] := by
  rw [passedOn, List.flatMap_eq_nil_iff]
  intro k _
  have hnot : ¬(via p.1 = some k ∧ k ≠ p.2) := fun hboth => hp ⟨k, hboth⟩
  rw [queued_after h hready k fun hboth => absurd hboth hnot, if_neg hnot, List.map_nil]

/-- The port that leads on is where the packet goes on. -/
theorem passedOn_of_leadsOn (hhops : hopCount t.frame < r.maxHops) {k : Fin (w.buses p.1)}
    (hvia : via p.1 = some k) (hk : k ≠ p.2) : passedOn moment t p =
      [{ segment := w.segment p.1 k, frame := withHops t.frame (hopCount t.frame + 1)
         source := some ⟨p.1, k⟩ }] := by
  rw [passedOn, Descent.flatMap_eq_of_single (List.nodup_finRange _) (List.mem_finRange k)]
  · rw [queued_after h hready k fun _ => hhops, if_pos ⟨hvia, hk⟩, List.map_singleton]
  · intro k' _ hne
    rw [queued_after h hready k' fun _ => hhops, if_neg, List.map_nil]
    exact fun hboth => hne (Option.some.inj (hboth.1.symm.trans hvia))

end Port

variable [DecidableEq σ] (hleads : LeadsTo via way home distance)
  (hready : ∀ p, w.place p = t.segment → Ready (moment.router p) target (via p.1))

include hleads hready

/-- On the last segment nothing is passed on. -/
theorem relay_of_home (hhome : t.segment = home) : w.relay moment t = [] := by
  rw [relay, List.flatMap_eq_nil_iff]
  intro p _
  split_ifs with hhears
  · exact passedOn_of_not_leadsOn h (hready p hhears.1) (hleads.ends p (hhears.1.trans hhome))
  · rfl

/-- On the others one frame follows, a step closer. -/
theorem relay_of_ne_home (hhops : hopCount t.frame < r.maxHops) (hway : t.segment ∈ way)
    (hhome : t.segment ≠ home) (hsource : ∀ p, t.source = some p → via p.1 = some p.2) :
    ∃ p k, Hears t p ∧ via p.1 = some k ∧ k ≠ p.2 ∧ w.segment p.1 k ∈ way ∧
      distance (w.segment p.1 k) + 1 = distance t.segment ∧ w.relay moment t =
        [{ segment := w.segment p.1 k, frame := withHops t.frame (hopCount t.frame + 1)
           source := some ⟨p.1, k⟩ }] := by
  obtain ⟨p, k, hplace, hvia, hk, hnext, hcloser, honly⟩ := hleads.onward t.segment hway hhome
  -- the port that leads on is not the one that the frame comes from
  have hhears : Hears t p := by
    refine ⟨hplace, fun heq => hk ?_⟩
    exact Option.some.inj (hvia.symm.trans (hsource p heq))
  refine ⟨p, k, hhears, hvia, hk, hnext, hcloser, ?_⟩
  rw [relay, Descent.flatMap_eq_of_single nodup_ports (mem_ports p)]
  · rw [if_pos hhears, passedOn_of_leadsOn h (hready p hplace) hhops hvia hk]
  · intro q _ hne
    split_ifs with hq
    · exact passedOn_of_not_leadsOn h (hready q hq.1) fun hleadsOn => hne (honly q hq.1 hleadsOn)
    · rfl

end Step

/-! ## The whole way -/

section Way

theorem distance_eq_zero_iff (hleads : LeadsTo via way home distance) {s : σ} (hs : s ∈ way) :
    distance s = 0 ↔ s = home := by
  constructor
  · intro hzero
    by_contra hne
    obtain ⟨p, k, -, -, -, -, hcloser, -⟩ := hleads.onward s hs hne
    omega
  · rintro rfl
    exact hleads.arrived

theorem toNat_add_ofNat {count : UInt8} {k : Nat} (h : count.toNat + k < 256) :
    (count + UInt8.ofNat k).toNat = count.toNat + k := by
  have hk : k % 2 ^ 8 = k := Nat.mod_eq_of_lt (by omega)
  rw [UInt8.toNat_add, UInt8.toNat_ofNat', hk]
  exact Nat.mod_eq_of_lt h

theorem add_ofNat_succ (count : UInt8) (k : Nat) :
    count + UInt8.ofNat k + 1 = count + UInt8.ofNat (k + 1) := by
  rw [UInt8.add_assoc]
  congr 1
  apply UInt8.toNat_inj.mp
  rw [UInt8.toNat_add, UInt8.toNat_ofNat', UInt8.toNat_ofNat']
  exact Nat.mod_add_mod k 256 1

/-- The frame after so many steps, with so many to go. -/
structure Underway (via : w.Directions) (way : Set σ) (distance : σ → Nat) (frame : List UInt8)
    (total : Nat) (steps left : Nat) (t : w.Travelling) : Prop where
  frame : t.frame = withHops frame (hopCount frame + UInt8.ofNat steps)
  on : t.segment ∈ way
  away : distance t.segment = left
  sum : steps + left = total
  source : ∀ p, t.source = some p → via p.1 = some p.2

variable {frame : List UInt8} (h : Routable r frame target) {total steps left : Nat}
  {t : w.Travelling}

include h

theorem hopCount_of_underway (ht : Underway via way distance frame total steps left t)
    (hlimit : (hopCount frame).toNat + total ≤ r.maxHops.toNat) :
    (hopCount t.frame).toNat = (hopCount frame).toNat + steps := by
  have hmax := r.maxHops.toNat_lt
  have hsum := ht.sum
  rw [ht.frame, hopCount_withHops h.admissible h.shared]
  exact toNat_add_ofNat (by omega)

theorem routable_of_underway (ht : Underway via way distance frame total steps left t) :
    Routable r t.frame target := by
  rw [ht.frame]
  exact routable_withHops h _

theorem underway_start {start : σ} (hstart : start ∈ way) :
    Underway via way distance frame (distance start) 0 (distance start)
      ({ segment := start, frame := frame } : w.Travelling) := by
  refine ⟨?_, hstart, rfl, Nat.zero_add _, nofun⟩
  rw [show UInt8.ofNat 0 = 0 from rfl, UInt8.add_zero, withHops_self h]

variable [DecidableEq σ] (hleads : LeadsTo via way home distance)

include hleads

/-- As long as there is a way to go, one router passes the frame on. -/
theorem next_of_underway {moment : w.Moment r}
    (hready : ∀ p, w.place p ∈ way → Ready (moment.router p) target (via p.1))
    (hlimit : (hopCount frame).toNat + total ≤ r.maxHops.toNat)
    (ht : Underway via way distance frame total steps (left + 1) t) :
    ∃ p k t', Hears t p ∧ via p.1 = some k ∧ k ≠ p.2 ∧ t'.segment = w.segment p.1 k ∧
      t'.source = some ⟨p.1, k⟩ ∧ w.relay moment t = [t'] ∧
      Underway via way distance frame total (steps + 1) left t' := by
  have hsum := ht.sum
  have haway := ht.away
  have hhome : t.segment ≠ home := fun heq => by
    have hzero := (distance_eq_zero_iff hleads ht.on).mpr heq
    omega
  have hhops : hopCount t.frame < r.maxHops := by
    have hcount := hopCount_of_underway h ht hlimit
    rw [UInt8.lt_iff_toNat_lt]
    omega
  obtain ⟨p, k, hhears, hvia, hk, hnext, hcloser, hrelay⟩ := relay_of_ne_home
    (routable_of_underway h ht) hleads (fun p hp => hready p (hp ▸ ht.on)) hhops ht.on hhome
    ht.source
  refine ⟨p, k, _, hhears, hvia, hk, rfl, rfl, hrelay, ?_, hnext, ?_, ?_, ?_⟩
  · show withHops t.frame _ = _
    rw [ht.frame, withHops_again h, hopCount_withHops h.admissible h.shared, add_ofNat_succ]
  · show distance (w.segment p.1 k) = left
    omega
  · omega
  · rintro q ⟨⟩
    exact hvia

/-- Each step brings the frame closer, and the last segment is the end. -/
theorem closer_relay {moments : Nat → w.Moment r}
    (hready : ∀ step p, w.place p ∈ way → Ready ((moments step).router p) target (via p.1))
    (hlimit : (hopCount frame).toNat + total ≤ r.maxHops.toNat) :
    Descent.Closer (fun step => w.relay (moments step))
      (Underway via way distance frame total) where
  step := by
    intro steps left t ht
    obtain ⟨p, k, t', -, -, -, -, -, hrelay, ht'⟩ :=
      next_of_underway h hleads (hready steps) hlimit ht
    exact ⟨t', hrelay, ht'⟩
  stop := by
    intro steps t ht
    exact relay_of_home (routable_of_underway h ht) hleads
      (fun p hp => hready steps p (hp ▸ ht.on)) ((distance_eq_zero_iff hleads ht.on).mp ht.away)

end Way

/-- Where the tables lead to the segment of a bus id, a packet for that bus id comes there over the
routers on the way, in one copy that is handed over there as if it had been sent there; it is
passed on by no other router, and by none from there. -/
theorem internetwork_delivers [DecidableEq σ] {moments : Nat → w.Moment r} {frame : List UInt8}
    (hleads : LeadsTo via way home distance)
    (hready : ∀ step p, w.place p ∈ way → Ready ((moments step).router p) target (via p.1))
    (h : Routable r frame target) {start : σ} (hstart : start ∈ way)
    (hlimit : (hopCount frame).toNat + distance start ≤ r.maxHops.toNat) :
    ReachesHome (w.travels moments start frame) frame home (distance start) := by
  have hcloser := closer_relay h hleads hready hlimit
  have hunderway : Underway via way distance frame (distance start) 0 (distance start)
      ({ segment := start, frame := frame } : w.Travelling) := underway_start h hstart
  constructor
  · intro steps hsteps
    obtain ⟨t, hspread, ht⟩ := Descent.spread_of_le hcloser hunderway hsteps
    refine ⟨t, hspread, hopCount_of_underway h ht hlimit, ?_, ?_⟩
    · rw [← distance_eq_zero_iff hleads ht.on, ht.away]
      omega
    · rw [ht.frame, hopCount_withHops h.admissible h.shared]
      exact arrivesAs_withHops h _
  · intro steps hsteps
    exact Descent.spread_of_lt hcloser hunderway hsteps

/-! ## The way back -/

section Back

variable {back : w.Directions} {start : σ} {distanceBack : σ → Nat} {steps left total : Nat}
  {t t' : w.Travelling}

/-- The segments that a frame has been on. -/
def passed (frames : Nat → List w.Travelling) (total : Nat) : Set σ :=
  { s | ∃ steps ≤ total, ∃ t, frames steps = [t] ∧ t.segment = s }

/-- The frame is so far from where it comes from, and whoever hears it hears it from there. -/
structure Leaves (back : w.Directions) (distanceBack : σ → Nat) (steps : Nat)
    (t : w.Travelling) : Prop where
  away : distanceBack t.segment = steps
  hearers : ∀ p, Hears t p → back p.1 = some p.2

section Leaves

variable (hback : LeadsTo back way start distanceBack)
  (hall : ∀ p, w.place p ∈ way → back p.1 ≠ none)

include hall

/-- A port that does not lead back is where its router knows the way back by. -/
theorem back_of_not_leadsOn {p : w.Port} (hp : w.place p ∈ way) (hnot : ¬LeadsOn back p) :
    back p.1 = some p.2 := by
  obtain ⟨k, hk⟩ := Option.ne_none_iff_exists'.mp (hall p hp)
  by_cases hsame : k = p.2
  · rw [hk, hsame]
  · exact absurd ⟨k, hk, hsame⟩ hnot

include hback

theorem leaves_start {frame : List UInt8} (hstart : start ∈ way) :
    Leaves back distanceBack 0 ({ segment := start, frame := frame } : w.Travelling) := by
  refine ⟨hback.arrived, fun p hp => ?_⟩
  have hplace : w.place p = start := hp.1
  exact back_of_not_leadsOn hall (hplace.symm ▸ hstart) (hback.ends p hplace)

/-- The port that a frame comes from is the one that leads back. -/
theorem leaves_next (ht : Leaves back distanceBack steps t) {p : w.Port} {k : Fin (w.buses p.1)}
    (hp : Hears t p) (hk : k ≠ p.2) (hsegment : t'.segment = w.segment p.1 k)
    (hsource : t'.source = some ⟨p.1, k⟩) (hway : t'.segment ∈ way) :
    Leaves back distanceBack (steps + 1) t' ∧ t'.segment ≠ start ∧
      ∀ q, w.place q = t'.segment → LeadsOn back q → q = ⟨p.1, k⟩ := by
  have hvia : back p.1 = some p.2 := ht.hearers p hp
  have hleadsOn : LeadsOn back ⟨p.1, k⟩ := ⟨p.2, hvia, Ne.symm hk⟩
  have hne : t'.segment ≠ start := fun heq => hback.ends ⟨p.1, k⟩ (hsegment.symm.trans heq) hleadsOn
  obtain ⟨p', k', -, hvia', -, -, hcloser, honly⟩ := hback.onward t'.segment hway hne
  obtain rfl := honly ⟨p.1, k⟩ hsegment.symm hleadsOn
  have hsame : k' = p.2 := Option.some.inj (hvia'.symm.trans hvia)
  refine ⟨⟨?_, fun q hq => ?_⟩, hne, honly⟩
  · have hplace : w.segment p.1 k' = t.segment := hsame ▸ hp.1
    have haway := ht.away
    rw [← hplace] at haway
    rw [← hcloser]
    exact congrArg (· + 1) haway
  · refine back_of_not_leadsOn hall (hq.1.symm ▸ hway) fun hleadsOn' => ?_
    exact hq.2 (hsource.trans (congrArg some (honly q hq.1 hleadsOn').symm))

end Leaves

section Passed

variable [DecidableEq σ] {moments : Nat → w.Moment r} {frame : List UInt8}
  (h : Routable r frame target) (hleads : LeadsTo via way home distance)
  (hready : ∀ step p, w.place p ∈ way → Ready ((moments step).router p) target (via p.1))
  (hlimit : (hopCount frame).toNat + total ≤ r.maxHops.toNat)
  (hback : LeadsTo back way start distanceBack)
  (hall : ∀ p, w.place p ∈ way → back p.1 ≠ none)

include h hleads hready hlimit hback hall

/-- What is on its way comes closer to the one end and away from the other. -/
theorem closer_leaves : Descent.Closer (fun step => w.relay (moments step)) fun steps left t =>
    Underway via way distance frame total steps left t ∧ Leaves back distanceBack steps t where
  step := by
    rintro steps left t ⟨ht, hleaves⟩
    obtain ⟨p, k, t', hp, -, hk, hsegment, hsource, hrelay, ht'⟩ :=
      next_of_underway h hleads (hready steps) hlimit ht
    exact ⟨t', hrelay, ht', (leaves_next hback hall hleaves hp hk hsegment hsource ht'.on).1⟩
  stop := by
    rintro steps t ⟨ht, -⟩
    exact (closer_relay h hleads hready hlimit).stop steps t ht

variable (hstart : start ∈ way) (htotal : distance start = total)

include hstart htotal

/-- The frame after so many steps. -/
theorem frames_eq (hsteps : steps ≤ total) :
    ∃ t, w.travels moments start frame steps = [t] ∧
      Underway via way distance frame total steps (total - steps) t ∧
      Leaves back distanceBack steps t := by
  subst htotal
  exact Descent.spread_of_le (closer_leaves h hleads hready hlimit hback hall)
    ⟨underway_start h hstart, leaves_start hback hall hstart⟩ hsteps

/-- How it came there. -/
theorem frames_succ_eq (hsteps : steps < total) :
    ∃ t p k t', w.travels moments start frame steps = [t] ∧
      w.travels moments start frame (steps + 1) = [t'] ∧
      Leaves back distanceBack steps t ∧ Hears t p ∧ k ≠ p.2 ∧
      t'.segment = w.segment p.1 k ∧ t'.source = some ⟨p.1, k⟩ ∧ t'.segment ∈ way := by
  obtain ⟨t, hframes, ht, hleaves⟩ :=
    frames_eq h hleads hready hlimit hback hall hstart htotal hsteps.le
  have hleft : total - steps = (total - (steps + 1)) + 1 := by omega
  rw [hleft] at ht
  obtain ⟨p, k, t', hp, -, hk, hsegment, hsource, hrelay, ht'⟩ :=
    next_of_underway h hleads (hready steps) hlimit ht
  refine ⟨t, p, k, t', hframes, ?_, hleaves, hp, hk, hsegment, hsource, ht'.on⟩
  show (w.travels moments start frame steps).flatMap (w.relay (moments steps)) = [t']
  rw [hframes, List.flatMap_singleton, hrelay]

/-- From where the frame has been, the directions lead back the way it came. -/
theorem leadsTo_passed : LeadsTo back
    (passed (w.travels moments start frame) total) start distanceBack where
  arrived := hback.arrived
  ends := hback.ends
  onward := by
    rintro s ⟨steps, hsteps, t', hframes', rfl⟩ hne
    cases steps with
    | zero =>
        obtain rfl := List.singleton_inj.mp hframes'
        exact absurd rfl hne
    | succ steps =>
        obtain ⟨t, p, k, t'', hframes, hnext, hleaves, hp, hk, hsegment, hsource, hway⟩ :=
          frames_succ_eq h hleads hready hlimit hback hall hstart htotal hsteps
        obtain rfl := List.singleton_inj.mp (hframes'.symm.trans hnext)
        obtain ⟨hleaves', -, honly⟩ := leaves_next hback hall hleaves hp hk hsegment hsource hway
        refine ⟨⟨p.1, k⟩, p.2, hsegment.symm, hleaves.hearers p hp, Ne.symm hk,
          ⟨steps, by omega, t, hframes, hp.1.symm⟩, ?_, honly⟩
        rw [hleaves'.away]
        exact congrArg (· + 1) ((congrArg distanceBack hp.1).trans hleaves.away)

variable {sender : Vector UInt8 4} (hsender : (infoOf (listener r) frame).tx.busId = sender)
  (hreceptive : ∀ step p, w.place p ∈ way →
    Receptive (w.dynamic p.1) ((moments step).router p) sender (back p.1))

include hsender hreceptive

/-- Whoever has heard the frame knows the sender where it has heard it. -/
theorem routesTo_after {steps : Nat} {t : w.Travelling}
    (hmem : t ∈ w.travels moments start frame steps) {p : w.Port} (hp : Hears t p) :
    back p.1 = some p.2 ∧ routesTo (after (moments steps) t p) sender = [p.2] := by
  have hsteps : steps ≤ total := by
    by_contra hafter
    obtain rfl := htotal
    rw [travels, Descent.spread_of_lt (closer_leaves h hleads hready hlimit hback hall)
      ⟨underway_start h hstart, leaves_start hback hall hstart⟩ (Nat.lt_of_not_le hafter)] at hmem
    exact absurd hmem List.not_mem_nil
  obtain ⟨t', hframes, ht, hleaves⟩ :=
    frames_eq h hleads hready hlimit hback hall hstart htotal hsteps
  obtain rfl := List.mem_singleton.mp (hframes ▸ hmem)
  have hway : w.place p ∈ way := hp.1.symm ▸ ht.on
  have hvia := hleaves.hearers p hp
  have hdelivery : Routable r (Delivery.mk t.frame ((moments steps).batch p)).bytes target :=
    routable_of_underway h ht
  have hreceptive' := hreceptive steps p hway
  rw [hvia] at hreceptive'
  refine ⟨hvia, routesTo_received (hready steps p hway) hdelivery (fun k hk hne => ?_) ?_
    hreceptive'⟩
  · -- the port leads on, so that there is a way to go
    have hhome : t.segment ≠ home := fun heq => hleads.ends p (hp.1.trans heq) ⟨k, hk, hne⟩
    have haway := mt (distance_eq_zero_iff hleads ht.on).mp hhome
    have hcount := hopCount_of_underway h ht hlimit
    have hsum := ht.sum
    rw [ht.away] at haway
    rw [UInt8.lt_iff_toNat_lt]
    show (hopCount t.frame).toNat < _
    omega
  · show (infoOf (listener r) t.frame).tx.busId = sender
    rw [ht.frame, sender_withHops h, hsender]

/-- The routers on the segments where the frame has been know the way back. -/
theorem routesTo_of_passed {later : Nat → w.Moment r}
    (hlater : Remembered (w.travels moments start frame) moments later sender)
    {p : w.Port} (hp : w.place p ∈ passed (w.travels moments start frame) total)
    (step : Nat) : routesTo ((later step).router p) sender = (back p.1).toList := by
  have hheard {steps : Nat} {t : w.Travelling}
      (hframes : w.travels moments start frame steps = [t]) {q : w.Port} (hq : Hears t q)
      (k : Fin (w.buses q.1)) :
      routesTo ((later step).router ⟨q.1, k⟩) sender = (back q.1).toList := by
    have hmem : t ∈ w.travels moments start frame steps := hframes ▸ List.mem_singleton_self t
    obtain ⟨hvia, hroutes⟩ := routesTo_after h hleads hready hlimit hback hall hstart htotal hsender
      hreceptive hmem hq
    rw [hlater steps t hmem q hq k step, hroutes, hvia]
    rfl
  obtain ⟨steps, hsteps, t, hframes, hsegment⟩ := hp
  by_cases hq : Hears t p
  · exact hheard hframes hq p.2
  · -- the port that the frame comes from is one of the router that heard it before
    have hsource : t.source = some p := by
      by_contra hne
      exact hq ⟨hsegment.symm, hne⟩
    cases steps with
    | zero =>
        obtain rfl := List.singleton_inj.mp hframes
        cases hsource
    | succ steps =>
        obtain ⟨t₀, p₀, k, t', hframes₀, hnext, -, hp₀, -, -, hsource', -⟩ :=
          frames_succ_eq h hleads hready hlimit hback hall hstart htotal hsteps
        obtain rfl := List.singleton_inj.mp (hframes.symm.trans hnext)
        obtain rfl := Option.some.inj (hsource.symm.trans hsource')
        exact hheard hframes₀ hp₀ k

variable {later : Nat → w.Moment r}
  (hlater : Remembered (w.travels moments start frame) moments later sender)
  (hready' : ∀ step p, w.place p ∈ way → ∃ via', Ready ((later step).router p) sender via')

include hlater hready'

/-- They pass on to the sender what they hear. -/
theorem ready_of_passed (step : Nat) (p : w.Port)
    (hp : w.place p ∈ passed (w.travels moments start frame) total) :
    Ready ((later step).router p) sender (back p.1) := by
  have hway : w.place p ∈ way := by
    obtain ⟨steps, hsteps, t, hframes, hplace⟩ := hp
    obtain ⟨t', hframes', ht', -⟩ :=
      frames_eq h hleads hready hlimit hback hall hstart htotal hsteps
    obtain rfl := List.singleton_inj.mp (hframes.symm.trans hframes')
    exact hplace ▸ ht'.on
  obtain ⟨via', hvia'⟩ := hready' step p hway
  have hroutes := routesTo_of_passed h hleads hready hlimit hback hall hstart htotal hsender
    hreceptive hlater hp step
  have hlist := hvia'.routes.symm.trans hroutes
  have hsame : via' = back p.1 := by
    apply Option.ext
    intro k
    rw [← Option.mem_toList, hlist, Option.mem_toList]
  exact hsame ▸ hvia'

variable {reply : List UInt8} (h' : Routable r reply sender)
  (hlimit' : (hopCount reply).toNat + total ≤ r.maxHops.toNat)

include h' hlimit'

/-- The reply after so many steps: on the segment where the frame was so many steps before its
last one. -/
theorem reply_eq (hsteps : steps ≤ total) :
    ∃ t t', w.travels moments start frame steps = [t] ∧
      w.travels later home reply (total - steps) = [t'] ∧ t'.segment = t.segment ∧
      Underway back (passed (w.travels moments start frame) total) distanceBack reply total
        (total - steps) steps t' := by
  have hpassed := leadsTo_passed h hleads hready hlimit hback hall hstart htotal
  obtain ⟨last, hlast, hend, hleaves⟩ :=
    frames_eq h hleads hready hlimit hback hall hstart htotal le_rfl
  have hhome : last.segment = home :=
    (distance_eq_zero_iff hleads hend.on).mp (hend.away.trans (Nat.sub_self _))
  have hdistance : distanceBack home = total := hhome ▸ hleaves.away
  have hon : home ∈ passed (w.travels moments start frame) total :=
    ⟨total, le_rfl, last, hlast, hhome⟩
  have hunderway : Underway back (passed (w.travels moments start frame) total) distanceBack reply
      (distanceBack home) 0 (distanceBack home)
      ({ segment := home, frame := reply } : w.Travelling) := underway_start h' hon
  rw [hdistance] at hunderway
  have hcloser : Descent.Closer (fun step => w.relay (later step))
      (Underway back (passed (w.travels moments start frame) total) distanceBack reply total) :=
    closer_relay h' hpassed
      (ready_of_passed h hleads hready hlimit hback hall hstart htotal hsender hreceptive hlater
        hready') hlimit'
  obtain ⟨t', hreply, ht'⟩ := Descent.spread_of_le hcloser hunderway (Nat.sub_le total steps)
  rw [Nat.sub_sub_self hsteps] at ht'
  obtain ⟨steps', hsteps', t, hframes, hsegment⟩ := ht'.on
  obtain ⟨t'', hframes', -, hleaves'⟩ :=
    frames_eq h hleads hready hlimit hback hall hstart htotal hsteps'
  obtain rfl := List.singleton_inj.mp (hframes.symm.trans hframes')
  -- the segments of the way are told apart by how far they are from its start
  have hsame : steps' = steps := by
    rw [← hleaves'.away, hsegment]
    exact ht'.away
  subst hsame
  exact ⟨t, t', hframes, hreply, hsegment.symm, ht'⟩

/-- The reply takes the way of the frame. -/
theorem retraces_travels :
    Retraces (w.travels moments start frame) (w.travels later home reply) total where
  segments := by
    intro steps hsteps t hmem t' hmem'
    obtain ⟨t₀, t₀', hframes, hreply, hsegment, -⟩ :=
      reply_eq h hleads hready hlimit hback hall hstart htotal hsender hreceptive hlater hready'
        h' hlimit' hsteps
    obtain rfl := List.mem_singleton.mp (hframes ▸ hmem)
    obtain rfl := List.mem_singleton.mp (hreply ▸ hmem')
    exact hsegment
  routers := by
    intro steps hsteps t hmem t' hmem'
    have hpassed := leadsTo_passed h hleads hready hlimit hback hall hstart htotal
    obtain ⟨t₀, p, k, t₁, -, hnext, hleaves, hp, hk, hplace, hsource, hway⟩ :=
      frames_succ_eq h hleads hready hlimit hback hall hstart htotal hsteps
    obtain rfl := List.mem_singleton.mp (hnext ▸ hmem)
    obtain ⟨-, -, honly⟩ := leaves_next hback hall hleaves hp hk hplace hsource hway
    obtain ⟨t₂, t₂', hframes, hreply, hsegment, ht₂⟩ :=
      reply_eq h hleads hready hlimit hback hall hstart htotal hsender hreceptive hlater hready'
        h' hlimit' hsteps
    obtain rfl := List.singleton_inj.mp (hnext.symm.trans hframes)
    obtain ⟨q, k', t₃, hq, hvia, hk', -, hsource', hrelay, -⟩ := next_of_underway h' hpassed
      (ready_of_passed h hleads hready hlimit hback hall hstart htotal hsender hreceptive hlater
        hready' (total - (steps + 1))) hlimit' ht₂
    have hsucc : total - steps = total - (steps + 1) + 1 := by omega
    have hlast : w.travels later home reply (total - steps) = [t₃] := by
      rw [hsucc]
      show (w.travels later home reply (total - (steps + 1))).flatMap (w.relay (later _)) = [t₃]
      rw [hreply, List.flatMap_singleton, hrelay]
    obtain rfl := List.mem_singleton.mp (hlast ▸ hmem')
    -- one port leads back from there, the one that the frame comes from
    have hport : q = ⟨p.1, k⟩ := honly q (hq.1.trans hsegment) ⟨k', hvia, hk'⟩
    have hrouter : q.1 = p.1 := by rw [hport]
    refine ⟨p.1, ?_, ?_⟩
    · rw [hsource]
      rfl
    · rw [hsource']
      exact congrArg some hrouter

end Passed

end Back

/-- Dynamic routers learn from a packet where its sender is.  A reply to the bus id of that sender
then finds the way back that the packet has come, over the same routers, as far as that was and no
further. -/
theorem reply_finds_way [DecidableEq σ] {back : w.Directions} {start : σ} {distanceBack : σ → Nat}
    {sender : Vector UInt8 4} {moments : Nat → w.Moment r} {frame : List UInt8}
    (hleads : LeadsTo via way home distance) (hback : LeadsTo back way start distanceBack)
    (hall : ∀ p, w.place p ∈ way → back p.1 ≠ none) (hstart : start ∈ way)
    (hready : ∀ step p, w.place p ∈ way → Ready ((moments step).router p) target (via p.1))
    (hreceptive : ∀ step p, w.place p ∈ way →
      Receptive (w.dynamic p.1) ((moments step).router p) sender (back p.1))
    (h : Routable r frame target) (hsender : (infoOf (listener r) frame).tx.busId = sender)
    (hlimit : (hopCount frame).toNat + distance start ≤ r.maxHops.toNat) :
    Learnt (w.travels moments start frame) moments sender ∧
      ∀ {later : Nat → w.Moment r} {reply : List UInt8},
        Remembered (w.travels moments start frame) moments later sender →
        (∀ step p, w.place p ∈ way → ∃ via', Ready ((later step).router p) sender via') →
        Routable r reply sender →
        (hopCount reply).toNat + distance start ≤ r.maxHops.toNat →
        Retraces (w.travels moments start frame) (w.travels later home reply) (distance start) ∧
          ReachesHome (w.travels later home reply) reply start (distance start) := by
  have hpassed := leadsTo_passed h hleads hready hlimit hback hall hstart rfl
  constructor
  · intro steps t hmem p hp
    exact (routesTo_after h hleads hready hlimit hback hall hstart rfl hsender hreceptive hmem
      hp).2
  · intro later reply hlater hready' h' hlimit'
    obtain ⟨t, hframes, ht, hleaves⟩ :=
      frames_eq h hleads hready hlimit hback hall hstart rfl le_rfl
    have hhome : t.segment = home :=
      (distance_eq_zero_iff hleads ht.on).mp (ht.away.trans (Nat.sub_self _))
    have hdistance : distanceBack home = distance start := hhome ▸ hleaves.away
    refine ⟨retraces_travels h hleads hready hlimit hback hall hstart rfl hsender hreceptive
      hlater hready' h' hlimit', ?_⟩
    rw [← hdistance] at hlimit' ⊢
    exact internetwork_delivers hpassed (ready_of_passed h hleads hready hlimit hback hall hstart
      rfl hsender hreceptive hlater hready') h' ⟨distance start, le_rfl, t, hframes, hhome⟩ hlimit'

/-! ## Three segments -/

def between (i k : Fin 2) : Fin 3 := ⟨i.val + k.val, by omega⟩

/-- The buses 0.0.0.1, 0.0.0.2 and 0.0.0.3, and a dynamic router between each two that follow. -/
def threeSegments : Internetwork (Fin 3) where
  routers := 2
  buses := fun _ => 2
  segment := between
  dynamic := fun _ => true

def routerBetween (first second : UInt8) (table : List (Route 2)) : Router routing 2 where
  toSwitch := Switch.connect #v[sharedBus first, sharedBus second] none twoBuses_lt
  table := table

/-- The first router has a row for the last bus, the second one has this table. -/
def momentWith (table : List (Route 2)) : threeSegments.Moment routing where
  router := fun p =>
    if p.1.val = 0 then routerBetween 1 2 [⟨busIdOf 3, 1⟩] else routerBetween 2 3 table
  batch := fun _ _ => 50
  surroundings := fun _ _ => {}

/-- Both routers pass on to this bus. -/
def towards (k : Fin 2) : threeSegments.Directions := fun _ => some k

theorem leadsTo_towards {b : Fin 2} {home : Fin 3} {distance : Fin 3 → Nat}
    (harrived : distance home = 0)
    (honward : ∀ s, s ≠ home → ∃ i k, between i k = s ∧ b ≠ k ∧
      distance (between i b) + 1 = distance s ∧
      ∀ i' k', between i' k' = s → b ≠ k' → i' = i ∧ k' = k)
    (hends : ∀ i k, between i k = home → b = k) :
    LeadsTo (towards b) Set.univ home distance := by
  refine ⟨harrived, fun s _ hs => ?_, ?_⟩
  · obtain ⟨i, k, hplace, hk, hcloser, honly⟩ := honward s hs
    refine ⟨⟨i, k⟩, b, hplace, rfl, hk, Set.mem_univ _, hcloser, ?_⟩
    rintro ⟨i', k'⟩ hplace' ⟨_, ⟨⟩, hk'⟩
    obtain ⟨rfl, rfl⟩ := honly i' k' hplace' hk'
    rfl
  · rintro ⟨i, k⟩ hplace ⟨_, ⟨⟩, hk⟩
    exact hk (hends i k hplace)

theorem leadsTo_last : LeadsTo (towards 1) Set.univ (2 : Fin 3) fun s => 2 - s.val :=
  leadsTo_towards rfl (by decide) (by decide)

theorem leadsTo_first : LeadsTo (towards 0) Set.univ (0 : Fin 3) fun s => s.val :=
  leadsTo_towards rfl (by decide) (by decide)

theorem ready_routerBetween (first second : UInt8) {table : List (Route 2)}
    {target : Vector UInt8 4} {k : Fin 2}
    (hroutes : routesTo (routerBetween first second table) target = [k])
    (hrows : table.length < 253) :
    Ready (routerBetween first second table) target (some k) where
  connected := connected_connect _ none twoBuses_lt
  routes := hroutes
  rows := Nat.lt_trans hrows (by decide)
  reach := fun i _ => by
    have hi : i.val < table.length := i.isLt
    omega
  gateway := rfl
  noNat := fun i => by
    have hconfig : ((routerBetween first second table).bus i).config = modeBit ||| txInfoBit :=
      match i with | 0 => rfl | 1 => rfl
    rw [Switch.isNat, hconfig]
    rfl
  noPort := fun | 0 => rfl | 1 => rfl
  room := fun | 0 => ⟨⟨0, by decide⟩, rfl⟩ | 1 => ⟨⟨0, by decide⟩, rfl⟩

theorem ready_last (p : threeSegments.Port) :
    Ready ((momentWith []).router p) (busIdOf 3) (towards 1 p.1) := by
  show Ready (if p.1.val = 0 then routerBetween 1 2 [⟨busIdOf 3, 1⟩] else routerBetween 2 3 [])
    (busIdOf 3) (some 1)
  split_ifs
  · exact ready_routerBetween 1 2 (by decide) (by decide)
  · exact ready_routerBetween 2 3 (by decide) (by decide)

theorem ready_first (p : threeSegments.Port) :
    Ready ((momentWith [⟨busIdOf 1, 0⟩]).router p) (busIdOf 1) (towards 0 p.1) := by
  show Ready (if p.1.val = 0 then routerBetween 1 2 [⟨busIdOf 3, 1⟩]
    else routerBetween 2 3 [⟨busIdOf 1, 0⟩]) (busIdOf 1) (some 0)
  split_ifs
  · exact ready_routerBetween 1 2 (by decide) (by decide)
  · exact ready_routerBetween 2 3 (by decide) (by decide)

theorem receptive_first (p : threeSegments.Port) :
    Receptive true ((momentWith []).router p) (busIdOf 1) (towards 0 p.1) := by
  show Receptive true
    (if p.1.val = 0 then routerBetween 1 2 [⟨busIdOf 3, 1⟩] else routerBetween 2 3 [])
    (busIdOf 1) (some 0)
  split_ifs
  · exact Or.inl ⟨by decide, by decide⟩
  · exact Or.inr ⟨rfl, by decide, by decide⟩

/-- A letter from device 12 of bus 0.0.0.1 to device 45 of bus 0.0.0.3. -/
def toThirdBus : List UInt8 :=
  [45, 35, 19, 96, 0, 0, 0, 3, 0, 0, 0, 1, 0, 12, 65, 168, 223, 234, 230]

/-- The reply to it. -/
def toFirstBus : List UInt8 :=
  [12, 35, 19, 147, 0, 0, 0, 1, 0, 0, 0, 3, 0, 45, 66, 87, 72, 184, 219]

theorem routable_of_calls {frame : List UInt8} {target : Vector UInt8 4}
    (hcalls : calls ((listener routing).receive ⟨frame, fun _ => 50⟩) = true)
    (hexact : frame.length = encodedLength frame) (hheader : header frame = 35)
    (hrecipient : (infoOf (listener routing) frame).rx.busId = target)
    (hsender : (infoOf (listener routing) frame).tx.busId ≠ target) :
    Routable routing frame target where
  admissible := (delivered_of_calls hcalls).toAdmissible
  exact := hexact
  shared := by
    rw [hheader]
    rfl
  recipient := hrecipient
  sender := hsender
  id := by
    rw [hheader]
    exact fun hbit => absurd hbit (by decide)
  port := by
    rw [hheader]
    exact fun hbit => absurd hbit (by decide)

theorem routable_toThirdBus : Routable routing toThirdBus (busIdOf 3) :=
  routable_of_calls (by decide +kernel) rfl rfl (by decide) (by decide)

theorem sender_toThirdBus : (infoOf (listener routing) toThirdBus).tx.busId = busIdOf 1 := by
  decide

theorem routable_toFirstBus : Routable routing toFirstBus (busIdOf 1) :=
  routable_of_calls (by decide +kernel) rfl rfl (by decide) (by decide)

theorem internetwork_delivers_toThirdBus :
    ReachesHome (threeSegments.travels (fun _ => momentWith []) (0 : Fin 3) toThirdBus)
      toThirdBus (2 : Fin 3) 2 :=
  internetwork_delivers leadsTo_last (fun _ p _ => ready_last p) routable_toThirdBus
    (Set.mem_univ _) (by decide)

theorem remembered_first :
    Remembered (threeSegments.travels (fun _ => momentWith []) (0 : Fin 3) toThirdBus)
      (fun _ => momentWith []) (fun _ => momentWith [⟨busIdOf 1, 0⟩]) (busIdOf 1) := by
  intro steps t hmem p hp k _
  obtain ⟨hvia, hroutes⟩ := routesTo_after routable_toThirdBus leadsTo_last
    (fun _ p _ => ready_last p) (by decide) leadsTo_first (fun _ _ => Option.some_ne_none _)
    (Set.mem_univ _) rfl sender_toThirdBus (fun _ p _ => receptive_first p) hmem hp
  exact ((ready_first ⟨p.1, k⟩).routes.trans (congrArg Option.toList hvia)).trans hroutes.symm

/-- Both routers learn of bus 0.0.0.1, and the reply comes back to it. -/
theorem reply_finds_way_toFirstBus :
    Learnt (threeSegments.travels (fun _ => momentWith []) (0 : Fin 3) toThirdBus)
        (fun _ => momentWith []) (busIdOf 1) ∧
      Retraces (threeSegments.travels (fun _ => momentWith []) (0 : Fin 3) toThirdBus)
        (threeSegments.travels (fun _ => momentWith [⟨busIdOf 1, 0⟩]) (2 : Fin 3) toFirstBus) 2 ∧
      ReachesHome (threeSegments.travels (fun _ => momentWith [⟨busIdOf 1, 0⟩]) (2 : Fin 3)
        toFirstBus) toFirstBus (0 : Fin 3) 2 := by
  obtain ⟨hlearnt, hreply⟩ := reply_finds_way leadsTo_last leadsTo_first
    (fun _ _ => Option.some_ne_none _) (Set.mem_univ _) (fun _ p _ => ready_last p)
    (fun _ p _ => receptive_first p) routable_toThirdBus sender_toThirdBus (by decide)
  exact ⟨hlearnt, hreply remembered_first (fun _ p _ => ⟨_, ready_first p⟩) routable_toFirstBus
    (by decide)⟩

end Pjon.Proofs.Internetwork
