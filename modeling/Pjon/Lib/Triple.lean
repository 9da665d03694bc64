import Mathlib.Tactic.SplitIfs
/-!
# Members that may go wrong

A member of an object changes the object and returns a value, unless it goes wrong on the way.
The rules are those of a program logic that is about members that do not go wrong: a triple
says what holds before and behind, and most members keep one assertion and return values of
some kind.
-/

namespace Pjon.Lib.Hoare

variable {σ ε α β : Type}

/-- Where `pre` holds the member does not go wrong, and `post` holds of what it returns and
leaves. -/
def Triple (pre : σ → Prop) (m : StateT σ (Except ε) α) (post : α → σ → Prop) : Prop :=
  ∀ s, pre s → ∃ a s', m s = .ok (a, s') ∧ post a s'

/-- The member keeps `inv` and returns a good value. -/
def Gives (inv : σ → Prop) (m : StateT σ (Except ε) α) (good : α → Prop) : Prop :=
  Triple inv m fun a s => inv s ∧ good a

/-- The member keeps `inv`. -/
def Keeps (inv : σ → Prop) (m : StateT σ (Except ε) α) : Prop := Gives inv m fun _ => True

/-- What comes behind a member that goes wrong is not reached. -/
theorem bind_error {m : StateT σ (Except ε) α} {s : σ} {e : ε} (h : m s = .error e)
    (f : α → StateT σ (Except ε) β) : (m >>= f) s = .error e := by
  show (m s >>= fun p => f p.1 p.2) = _
  rw [h]
  rfl

theorem bind_ok {m : StateT σ (Except ε) α} {s s' : σ} {a : α} (h : m s = .ok (a, s'))
    (f : α → StateT σ (Except ε) β) : (m >>= f) s = f a s' := by
  show (m s >>= fun p => f p.1 p.2) = _
  rw [h]
  rfl

namespace Triple

variable {pre pre' : σ → Prop} {post post' mid : α → σ → Prop} {last : β → σ → Prop}
  {m : StateT σ (Except ε) α} {f : α → StateT σ (Except ε) β}

theorem returns {a : α} (h : ∀ s, pre s → post a s) :
    Triple pre (pure a : StateT σ (Except ε) α) post :=
  fun s hs => ⟨a, s, rfl, h s hs⟩

theorem bind (hm : Triple pre m mid) (hf : ∀ a, Triple (mid a) (f a) last) :
    Triple pre (m >>= f) last := by
  intro s hs
  obtain ⟨a, s', hrun, hmid⟩ := hm s hs
  obtain ⟨b, s'', hrun', hlast⟩ := hf a s' hmid
  exact ⟨b, s'', (bind_ok hrun f).trans hrun', hlast⟩

theorem get {seen : σ → σ → Prop} (h : ∀ s, pre s → seen s s) :
    Triple pre (MonadState.get : StateT σ (Except ε) σ) seen :=
  fun s hs => ⟨s, s, rfl, h s hs⟩

theorem modify {g : σ → σ} {done : Unit → σ → Prop} (h : ∀ s, pre s → done () (g s)) :
    Triple pre (modify g : StateT σ (Except ε) Unit) done :=
  fun s hs => ⟨(), g s, rfl, h s hs⟩

theorem consequence (hm : Triple pre m post) (hpre : ∀ s, pre' s → pre s)
    (hpost : ∀ a s, post a s → post' a s) : Triple pre' m post' := by
  intro s hs
  obtain ⟨a, s', hrun, h⟩ := hm s (hpre s hs)
  exact ⟨a, s', hrun, hpost a s' h⟩

theorem ite {c : Prop} [Decidable c] {m' : StateT σ (Except ε) α} (hm : c → Triple pre m post)
    (hm' : ¬c → Triple pre m' post) : Triple pre (if c then m else m') post := by
  split_ifs with h
  · exact hm h
  · exact hm' h

/-- What is known of a value need not be carried along. -/
theorem of_and {p : Prop} (h : p → Triple pre m post) : Triple (fun s => pre s ∧ p) m post :=
  fun s hs => h hs.2 s hs.1

end Triple

variable {inv : σ → Prop} {good good' : α → Prop} {fine : β → Prop}
  {m : StateT σ (Except ε) α} {f : α → StateT σ (Except ε) β}

namespace Gives

theorem returns {a : α} (h : good a) : Gives inv (pure a : StateT σ (Except ε) α) good :=
  Triple.returns fun _ hs => ⟨hs, h⟩

theorem bind (hm : Gives inv m good) (hf : ∀ a, good a → Gives inv (f a) fine) :
    Gives inv (m >>= f) fine :=
  Triple.bind hm fun a => Triple.of_and (hf a)

/-- The object that a member looks at satisfies what it keeps. -/
theorem get : Gives inv (MonadState.get : StateT σ (Except ε) σ) inv :=
  Triple.get fun _ hs => ⟨hs, hs⟩

theorem mono (hm : Gives inv m good) (h : ∀ a, good a → good' a) : Gives inv m good' :=
  Triple.consequence hm (fun _ hs => hs) fun a _ hs => ⟨hs.1, h a hs.2⟩

theorem keeps (hm : Gives inv m good) : Keeps inv m := hm.mono fun _ _ => trivial

theorem ite {c : Prop} [Decidable c] {m' : StateT σ (Except ε) α} (hm : c → Gives inv m good)
    (hm' : ¬c → Gives inv m' good) : Gives inv (if c then m else m') good :=
  Triple.ite hm hm'

end Gives

namespace Keeps

theorem modify {g : σ → σ} (h : ∀ s, inv s → inv (g s)) :
    Keeps inv (modify g : StateT σ (Except ε) Unit) :=
  Triple.modify fun s hs => ⟨h s hs, trivial⟩

theorem bind (hm : Keeps inv m) (hf : ∀ a, Gives inv (f a) fine) : Gives inv (m >>= f) fine :=
  Gives.bind hm fun a _ => hf a

/-- One member for each element of a list. -/
theorem forM {member : β → StateT σ (Except ε) Unit} (l : List β)
    (h : ∀ b, Keeps inv (member b)) : Keeps inv (l.forM member) := by
  induction l with
  | nil => exact Gives.returns trivial
  | cons b l ih => exact Keeps.bind (h b) fun _ => ih

end Keeps

end Pjon.Lib.Hoare
