import Mathlib.Data.List.Nodup
import Mathlib.Data.List.Basic
/-!
# A table of what was heard last

A table with room for a number of entries, each a key with a value.  What is heard about a key
that is in the table replaces its value; another key is added at the end, if there is room.
-/

namespace Pjon.Lib.Registry

variable {κ β : Type} [DecidableEq κ] {room : Nat}

abbrev Table (κ β : Type) := List (κ × β)

def keys (table : Table κ β) : List κ := table.map Prod.fst

def find (table : Table κ β) (key : κ) : Option Nat := table.findIdx? fun e => e.1 == key

/-- Register what is heard about a key. -/
def register (room : Nat) (table : Table κ β) (heard : κ × β) : Table κ β :=
  match find table heard.1 with
  | none => if table.length = room then table else table ++ [heard]
  | some pos => table.modify pos fun e => (e.1, heard.2)

theorem find_eq_none_iff {table : Table κ β} {key : κ} :
    find table key = none ↔ key ∉ keys table := by
  rw [find, List.findIdx?_eq_none_iff, keys, List.mem_map]
  constructor
  · rintro h ⟨e, hmem, rfl⟩
    exact absurd (h e hmem) (by simp)
  · intro h e hmem
    exact beq_eq_false_iff_ne.mpr fun heq => h ⟨e, hmem, heq⟩

/-- A key that is in the table is found at its first entry. -/
theorem find_of_mem {table : Table κ β} {key : κ} (h : key ∈ keys table) :
    ∃ before value after, table = before ++ (key, value) :: after ∧ key ∉ keys before ∧
      find table key = some before.length := by
  induction table with
  | nil => exact absurd h List.not_mem_nil
  | cons e table ih =>
      by_cases he : e.1 = key
      · refine ⟨[], e.2, table, ?_, List.not_mem_nil, ?_⟩
        · rw [List.nil_append, ← he]
        · rw [find, List.findIdx?_cons, he, BEq.rfl, if_pos rfl]
          rfl
      · have hrest : key ∈ keys table := (List.mem_cons.mp h).resolve_left (Ne.symm he)
        obtain ⟨before, value, after, heq, hbefore, hfind⟩ := ih hrest
        refine ⟨e :: before, value, after, by rw [heq, List.cons_append], ?_, ?_⟩
        · exact fun hmem => (List.mem_cons.mp hmem).elim (fun hkey => he hkey.symm) hbefore
        · rw [find] at hfind ⊢
          rw [List.findIdx?_cons, beq_eq_false_iff_ne.mpr he, if_neg Bool.false_ne_true, hfind]
          rfl

/-! ## Registering -/

theorem register_of_not_mem {table : Table κ β} {heard : κ × β} (h : heard.1 ∉ keys table) :
    register room table heard = if table.length = room then table else table ++ [heard] := by
  rw [register, find_eq_none_iff.mpr h]

omit [DecidableEq κ] in
theorem modify_split (before after : Table κ β) (e : κ × β) (f : κ × β → κ × β) :
    (before ++ e :: after).modify before.length f = before ++ f e :: after := by
  induction before with
  | nil => rfl
  | cons e' before ih => rw [List.cons_append, List.length_cons, List.modify_succ_cons, ih]; rfl

theorem register_of_mem (room : Nat) {table : Table κ β} {heard : κ × β}
    (h : heard.1 ∈ keys table) :
    ∃ before value after, table = before ++ (heard.1, value) :: after ∧ heard.1 ∉ keys before ∧
      register room table heard = before ++ heard :: after := by
  obtain ⟨before, value, after, heq, hbefore, hfind⟩ := find_of_mem h
  refine ⟨before, value, after, heq, hbefore, ?_⟩
  rw [register, hfind, heq]
  exact modify_split before after _ _

/-- The keys stay, and a new one is added behind them. -/
theorem keys_register (room : Nat) (table : Table κ β) (heard : κ × β) :
    keys (register room table heard) = keys table ∨
      heard.1 ∉ keys table ∧ table.length ≠ room ∧
        keys (register room table heard) = keys table ++ [heard.1] := by
  by_cases h : heard.1 ∈ keys table
  · obtain ⟨before, value, after, heq, -, hregister⟩ := register_of_mem room h
    rw [hregister, heq]
    left
    simp only [keys, List.map_append, List.map_cons]
  · rw [register_of_not_mem h]
    split_ifs with hfull
    · exact Or.inl rfl
    · exact Or.inr ⟨h, hfull, List.map_append⟩

theorem length_register_le {table : Table κ β} (h : table.length ≤ room) (heard : κ × β) :
    (register room table heard).length ≤ room := by
  have hlength : ∀ t : Table κ β, t.length = (keys t).length := fun t => (List.length_map _).symm
  rw [hlength] at h ⊢
  rcases keys_register room table heard with hkeys | ⟨-, hroom, hkeys⟩
  · rwa [hkeys]
  · rw [hlength] at hroom
    rw [hkeys, List.length_append, List.length_singleton]
    omega

theorem nodup_register {table : Table κ β} (h : (keys table).Nodup) (heard : κ × β) :
    (keys (register room table heard)).Nodup := by
  rcases keys_register room table heard with hkeys | ⟨hnew, -, hkeys⟩
  · rwa [hkeys]
  · rw [hkeys]
    exact List.nodup_append.mpr ⟨h, List.nodup_singleton _, by
      rintro key hkey _ hlast rfl
      exact hnew (List.mem_singleton.mp hlast ▸ hkey)⟩

theorem mem_keys_register {table : Table κ β} {key : κ} (h : key ∈ keys table)
    (heard : κ × β) : key ∈ keys (register room table heard) := by
  rcases keys_register room table heard with hkeys | ⟨-, -, hkeys⟩
  · rwa [hkeys]
  · rw [hkeys]
    exact List.mem_append_left _ h

/-- What is heard about is in the table, unless that is full. -/
theorem registered_or_full (room : Nat) (table : Table κ β) (heard : κ × β) :
    heard.1 ∈ keys (register room table heard) ∨ (register room table heard).length = room := by
  by_cases h : heard.1 ∈ keys table
  · exact Or.inl (mem_keys_register h heard)
  · rw [register_of_not_mem h]
    split_ifs with hfull
    · exact Or.inr hfull
    · left
      rw [keys, List.map_append, List.mem_append]
      exact Or.inr List.mem_cons_self

theorem length_register_ge (room : Nat) (table : Table κ β) (heard : κ × β) :
    table.length ≤ (register room table heard).length := by
  have hlength : ∀ t : Table κ β, t.length = (keys t).length := fun t => (List.length_map _).symm
  rw [hlength, hlength]
  rcases keys_register room table heard with hkeys | ⟨-, -, hkeys⟩
  · exact Nat.le_of_eq (congrArg List.length hkeys).symm
  · rw [hkeys, List.length_append]
    exact Nat.le_add_right _ _

/-- The key has the new value, and the others keep theirs. -/
theorem mem_register {table : Table κ β} (hnodup : (keys table).Nodup) {heard e : κ × β}
    (h : e ∈ register room table heard) : e = heard ∨ e.1 ≠ heard.1 ∧ e ∈ table := by
  by_cases hmem : heard.1 ∈ keys table
  · obtain ⟨before, value, after, heq, hbefore, hregister⟩ := register_of_mem room hmem
    rw [hregister, List.mem_append, List.mem_cons] at h
    have hafter : heard.1 ∉ keys after := by
      rw [heq, keys, List.map_append, List.map_cons] at hnodup
      exact (List.nodup_cons.mp (List.nodup_append.mp hnodup).2.1).1
    rw [heq]
    rcases h with hfront | rfl | hback
    · refine Or.inr ⟨fun hkey => hbefore (hkey ▸ List.mem_map_of_mem hfront), ?_⟩
      exact List.mem_append_left _ hfront
    · exact Or.inl rfl
    · refine Or.inr ⟨fun hkey => hafter (hkey ▸ List.mem_map_of_mem hback), ?_⟩
      exact List.mem_append_right _ (List.mem_cons_of_mem _ hback)
  · have hold : e ∈ table → e.1 ≠ heard.1 :=
      fun he hkey => hmem (hkey ▸ List.mem_map_of_mem he)
    rw [register_of_not_mem hmem] at h
    split_ifs at h with hfull
    · exact Or.inr ⟨hold h, h⟩
    · rcases List.mem_append.mp h with he | he
      · exact Or.inr ⟨hold he, he⟩
      · exact Or.inl (List.mem_singleton.mp he)

/-! ## What was heard last -/

/-- The value that was heard last about a key. -/
def last (history : List (κ × β)) (key : κ) : Option β :=
  (history.reverse.find? fun heard => heard.1 == key).map Prod.snd

theorem last_concat (history : List (κ × β)) (heard : κ × β) (key : κ) :
    last (history ++ [heard]) key = if heard.1 = key then some heard.2 else last history key := by
  rw [last, List.reverse_concat, List.find?_cons]
  by_cases hkey : heard.1 = key
  · rw [if_pos hkey, beq_iff_eq.mpr hkey]
    rfl
  · rw [if_neg hkey, beq_eq_false_iff_ne.mpr hkey]
    rfl

theorem last_of_mem {history : List (κ × β)} {key : κ} (h : key ∈ history.map Prod.fst) :
    ∃ value, last history key = some value ∧ (key, value) ∈ history := by
  obtain ⟨heard, hmem, hkey⟩ := List.mem_map.mp h
  have hsome : (history.reverse.find? fun heard => heard.1 == key).isSome :=
    List.find?_isSome.mpr ⟨heard, List.mem_reverse.mpr hmem, beq_iff_eq.mpr hkey⟩
  obtain ⟨found, hfound⟩ := Option.isSome_iff_exists.mp hsome
  have hfst : found.1 = key := by simpa using List.find?_some hfound
  refine ⟨found.2, by rw [last, hfound]; rfl, ?_⟩
  rw [← hfst]
  exact List.mem_reverse.mp (List.mem_of_find?_eq_some hfound)

/-- Each entry has the value that was heard last about its key. -/
def Current (history : List (κ × β)) (table : Table κ β) : Prop :=
  ∀ e ∈ table, last history e.1 = some e.2

theorem Current.register {history : List (κ × β)} {table : Table κ β} (h : Current history table)
    (hnodup : (keys table).Nodup) (heard : κ × β) :
    Current (history ++ [heard]) (register room table heard) := by
  intro e he
  rw [last_concat]
  rcases mem_register hnodup he with rfl | ⟨hkey, hold⟩
  · rw [if_pos rfl]
  · rw [if_neg (Ne.symm hkey)]
    exact h e hold

theorem Current.mono {history : List (κ × β)} {table table' : Table κ β}
    (h : Current history table) (hsub : ∀ e ∈ table', e ∈ table) : Current history table' :=
  fun e he => h e (hsub e he)

end Pjon.Lib.Registry
