/-!
# Dictionaries

A dictionary maps texts to values and lists its entries in ascending order of the keys, by code
point. The order is part of the type, so two dictionaries with the same look-ups are equal
(`Dict.ext_get?`). Every operation is described by what `get?` answers afterwards.
-/

namespace Pipework

/-- Entries with strictly ascending keys. -/
abbrev Ascending {α : Type} (entries : List (String × α)) : Prop :=
  entries.Pairwise fun a b => a.1 < b.1

namespace Entries

variable {α β : Type}

/-- The value stored under a key. -/
def find? (k : String) : List (String × α) → Option α
  | [] => none
  | (l, x) :: r => if l = k then some x else find? k r

/-- Replaces the value under a key by what `f` makes of the present one. A new key goes before the
first one that is greater. -/
def put (k : String) (f : Option α → α) : List (String × α) → List (String × α)
  | [] => [(k, f none)]
  | (l, x) :: r =>
    if l = k then (l, f (some x)) :: r
    else if k < l ∧ find? k r = none then (k, f none) :: (l, x) :: r
    else (l, x) :: put k f r

variable {k m : String} {x : α} {f g : Option α → α} {l : List (String × α)} {e : String × α}

theorem find?_put : find? m (put k f l) = if k = m then some (f (find? k l)) else find? m l := by
  fun_induction put k f l <;> grind [find?]

/-- The value under a key that is changed twice. -/
theorem put_put : put k g (put k f l) = put k (fun old => g (some (f old))) l := by
  fun_induction put k f l <;> grind [put, find?, find?_put]

theorem put_of_find? (h : find? k l = some x) (hf : f (some x) = x) : put k f l = l := by
  fun_induction put k f l <;> grind [find?]

theorem lt_of_not_lt {a b : String} (h : ¬ a < b) (hne : b ≠ a) : b < a :=
  Std.lt_of_le_of_ne (String.not_lt.1 h) hne

/-- It makes no difference which of two keys is changed first. -/
theorem put_comm (h : k ≠ m) : put k f (put m g l) = put m g (put k f l) := by
  have htotal : k < m ∨ m < k := Decidable.or_iff_not_imp_left.2 fun hlt => lt_of_not_lt hlt h.symm
  have hasymm := @String.lt_asymm k m
  induction l with
  | nil => grind [put, find?]
  | cons e l ih =>
    -- If both keys are new and go before `e`, they come in their own order.
    have hbefore := @String.lt_trans k m e.1
    have hafter := @String.lt_trans m k e.1
    grind [put, find?, find?_put]

theorem mem_put (h : e ∈ put k f l) : e.1 = k ∨ e ∈ l := by
  fun_induction put k f l <;> grind

theorem find?_eq_none_of_forall (h : ∀ e ∈ l, e.1 ≠ k) : find? k l = none := by
  induction l with
  | nil => rfl
  | cons a r ih =>
    simp only [find?]
    rw [if_neg (h a List.mem_cons_self), ih fun e he => h e (List.mem_cons_of_mem _ he)]

theorem find?_eq_none_of_lt (h : ∀ e ∈ l, k < e.1) : find? k l = none :=
  find?_eq_none_of_forall fun e he heq => String.lt_irrefl k (by simpa [heq] using h e he)

theorem ascending_put (h : Ascending l) : Ascending (put k f l) := by
  induction l with
  | nil => simp [put, Ascending]
  | cons e l ih =>
    obtain ⟨hfirst, hrest⟩ := List.pairwise_cons.1 h
    rw [put]
    split
    · exact List.pairwise_cons.2 ⟨hfirst, hrest⟩
    · rename_i hne
      split
      · rename_i hnew
        refine List.pairwise_cons.2 ⟨?_, h⟩
        intro other hother
        rcases List.mem_cons.1 hother with rfl | hother
        · exact hnew.1
        · exact String.lt_trans hnew.1 (hfirst other hother)
      · rename_i hnot
        refine List.pairwise_cons.2 ⟨?_, ih hrest⟩
        -- A key that is not new is among the rest, which is greater than the first one.
        have hless : e.1 < k := by
          refine lt_of_not_lt ?_ hne
          intro hlt
          refine hnot ⟨hlt, find?_eq_none_of_lt ?_⟩
          intro other hother
          exact String.lt_trans hlt (hfirst other hother)
        intro other hother
        rcases mem_put hother with heq | hother
        · rwa [heq]
        · exact hfirst other hother

theorem mem_of_find? (h : find? k l = some x) :
    (k, x) ∈ l := by
  induction l with
  | nil => simp [find?] at h
  | cons a r ih =>
    obtain ⟨m, y⟩ := a
    simp only [find?] at h
    split at h
    · simp_all
    · exact List.mem_cons_of_mem _ (ih h)

theorem find?_of_mem (hl : Ascending l)
    (h : (k, x) ∈ l) : find? k l = some x := by
  induction l with
  | nil => simp at h
  | cons a r ih =>
    obtain ⟨m, y⟩ := a
    have hr := List.pairwise_cons.1 hl
    simp only [find?]
    rcases List.mem_cons.1 h with h | h
    · simp_all
    · have : m ≠ k := fun e => String.lt_irrefl k (e ▸ hr.1 _ h)
      rw [if_neg this, ih hr.2 h]

theorem eq_of_find? {l m : List (String × α)} (hl : Ascending l) (hm : Ascending m)
    (h : ∀ k, find? k l = find? k m) : l = m := by
  induction l generalizing m with
  | nil =>
    cases m with
    | nil => rfl
    | cons a r => have := h a.1; simp [find?] at this
  | cons a r ih =>
    obtain ⟨k, x⟩ := a
    cases m with
    | nil => have := h k; simp [find?] at this
    | cons b s =>
      obtain ⟨n, y⟩ := b
      have hr := List.pairwise_cons.1 hl
      have hs := List.pairwise_cons.1 hm
      have hkn : k = n := by
        rcases String.le_total k n with hle | hle <;> refine Classical.byContradiction fun hne => ?_
        · have hlt := Std.lt_of_le_of_ne hle hne
          have hk := h k
          rw [find?, if_pos rfl, find?, if_neg fun e => hne e.symm,
            find?_eq_none_of_lt fun e he => String.lt_trans hlt (hs.1 e he)] at hk
          exact absurd hk (by simp)
        · have hlt := Std.lt_of_le_of_ne hle fun e => hne e.symm
          have hn := h n
          rw [find?, if_neg hne, find?, if_pos rfl,
            find?_eq_none_of_lt fun e he => String.lt_trans hlt (hr.1 e he)] at hn
          exact absurd hn (by simp)
      subst hkn
      have hxy : x = y := by simpa [find?] using h k
      subst hxy
      have : r = s := ih hr.2 hs.2 fun m => by
        by_cases hm' : k = m
        · subst hm'
          rw [find?_eq_none_of_lt hr.1, find?_eq_none_of_lt hs.1]
        · simpa [find?, hm'] using h m
      rw [this]

end Entries

/-- A finite map from texts to values, its entries in ascending order of the keys. -/
structure Dict (α : Type) where
  /-- The pairs of key and value. -/
  entries : List (String × α)
  /-- Keys ascend strictly, so none repeats. -/
  ascending : Ascending entries := by exact List.Pairwise.nil
  deriving DecidableEq

namespace Dict

variable {α β : Type}

def empty : Dict α := ⟨[], .nil⟩

instance : Inhabited (Dict α) := ⟨empty⟩

def isEmpty (d : Dict α) : Bool := d.entries.isEmpty

def get? (d : Dict α) (k : String) : Option α := Entries.find? k d.entries

def contains (d : Dict α) (k : String) : Bool := (d.get? k).isSome

def keys (d : Dict α) : List String := d.entries.map (·.1)

def values (d : Dict α) : List α := d.entries.map (·.2)

def size (d : Dict α) : Nat := d.entries.length

/-- Replaces the value under a key by what `f` makes of the present one. -/
def alter (d : Dict α) (k : String) (f : Option α → α) : Dict α :=
  ⟨Entries.put k f d.entries, Entries.ascending_put d.ascending⟩

def insert (d : Dict α) (k : String) (x : α) : Dict α := d.alter k fun _ => x

/-- Later pairs win over earlier ones with the same key. -/
def insertMany (d : Dict α) (l : List (String × α)) : Dict α :=
  l.foldl (fun d e => d.insert e.1 e.2) d

def ofList (l : List (String × α)) : Dict α := insertMany empty l

theorem ascending_map {f : String → α → β} {l : List (String × α)} (h : Ascending l) :
    Ascending (l.map fun e => (e.1, f e.1 e.2)) :=
  List.pairwise_map.2 (h.imp fun h => h)

def mapWithKey (f : String → α → β) (d : Dict α) : Dict β :=
  ⟨d.entries.map fun e => (e.1, f e.1 e.2), ascending_map d.ascending⟩

def map (f : α → β) (d : Dict α) : Dict β := d.mapWithKey fun _ x => f x

/-- Keeps the entries that satisfy a test. -/
def filter (p : String → α → Bool) (d : Dict α) : Dict α :=
  ⟨d.entries.filter fun e => p e.1 e.2, d.ascending.filter _⟩

def erase (d : Dict α) (k : String) : Dict α := d.filter fun l _ => l != k

/-- Changes every value, from the first key on, until one cannot be changed. -/
def traverse {ε : Type} (f : String → α → Except ε β) (d : Dict α) : Except ε (Dict β) :=
  d.entries.foldlM (fun done (k, x) => (f k x).map (done.insert k)) empty

@[simp] theorem get?_empty (k : String) : (empty : Dict α).get? k = none := rfl

theorem get?_alter (d : Dict α) (k m : String) (f : Option α → α) :
    (d.alter k f).get? m = if k = m then some (f (d.get? k)) else d.get? m :=
  Entries.find?_put

theorem get?_insert (d : Dict α) (k m : String) (x : α) :
    (d.insert k x).get? m = if k = m then some x else d.get? m := d.get?_alter k m _

theorem ext_entries {a b : Dict α} (h : a.entries = b.entries) : a = b := by
  cases a
  cases b
  cases h
  rfl

/-- Dictionaries are determined by their look-ups. -/
theorem ext_get? {a b : Dict α} (h : ∀ k, a.get? k = b.get? k) : a = b :=
  ext_entries (Entries.eq_of_find? a.ascending b.ascending h)

theorem mem_entries_iff {d : Dict α} {k : String} {x : α} :
    (k, x) ∈ d.entries ↔ d.get? k = some x :=
  ⟨Entries.find?_of_mem d.ascending, Entries.mem_of_find?⟩

end Dict

/-- A finite set of names, listed in ascending order by `keys`. -/
abbrev NameSet := Dict Unit

namespace NameSet

def ofList (names : List String) : NameSet := Dict.ofList (names.map (·, ()))

/-- The set with more names in it. -/
def addAll (s : NameSet) (names : List String) : NameSet := s.insertMany (names.map (·, ()))

end NameSet

end Pipework
