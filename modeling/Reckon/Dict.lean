import Reckon.Text.Basic

/-!
# Dictionaries in the order of their keys

A dictionary binds texts to values. Its entries are kept in increasing order of the keys, compared
byte by byte, which is the order in which they are shown. Each key occurs once, so a dictionary is
determined by what `find?` answers (`Dict.ext_find?`).
-/

namespace Reckon

/-- Bindings of texts to values, in the order of the texts. -/
structure Dict (α : Type) where
  entries : List (Text × α)
  sorted : entries.Pairwise fun a b => a.1 < b.1

namespace Dict

variable {α : Type}

/-- The dictionary without bindings. -/
def empty : Dict α := ⟨[], List.Pairwise.nil⟩

instance : Inhabited (Dict α) := ⟨empty⟩

/-- The value of a key in a list of bindings. -/
def valueIn? (key : Text) : List (Text × α) → Option α
  | [] => none
  | (k, v) :: rest => if key = k then some v else valueIn? key rest

/-- The value of a key. -/
def find? (d : Dict α) (key : Text) : Option α := valueIn? key d.entries

/-- Whether a key has a value. -/
def contains (d : Dict α) (key : Text) : Bool := (d.find? key).isSome

/-- The number of keys. -/
def size (d : Dict α) : Nat := d.entries.length

/-- Puts a binding at its place, instead of an older one for the same key. -/
def insertEntry (key : Text) (value : α) : List (Text × α) → List (Text × α)
  | [] => [(key, value)]
  | (k, v) :: rest =>
    if key = k then (key, value) :: rest
    else if key < k then (key, value) :: (k, v) :: rest
    else (k, v) :: insertEntry key value rest

/-- The keys after an insertion are the old ones and the new one. -/
theorem mem_insertEntry {key : Text} {value : α} {l : List (Text × α)} {e : Text × α}
    (h : e ∈ insertEntry key value l) : e = (key, value) ∨ e ∈ l := by
  induction l with
  | nil => simpa [insertEntry] using h
  | cons head rest ih =>
    obtain ⟨k, v⟩ := head
    unfold insertEntry at h
    split at h
    · rcases List.mem_cons.1 h with h | h
      · exact .inl h
      · exact .inr (List.mem_cons_of_mem _ h)
    · split at h
      · rcases List.mem_cons.1 h with h | h
        · exact .inl h
        · exact .inr h
      · rcases List.mem_cons.1 h with h | h
        · exact .inr (h ▸ List.mem_cons_self)
        · rcases ih h with h | h
          · exact .inl h
          · exact .inr (List.mem_cons_of_mem _ h)

/-- Of two different keys one is less than the other. -/
theorem lt_of_not_lt {a b : Text} (hne : a ≠ b) (h : ¬ a < b) : b < a := by
  by_cases hlt : b < a
  · exact hlt
  · exact absurd (List.le_antisymm hlt h) hne

/-- Insertion keeps the order. -/
theorem sorted_insertEntry (key : Text) (value : α) {l : List (Text × α)}
    (h : l.Pairwise fun a b => a.1 < b.1) :
    (insertEntry key value l).Pairwise fun a b => a.1 < b.1 := by
  induction l with
  | nil => simp [insertEntry]
  | cons head rest ih =>
    obtain ⟨k, v⟩ := head
    obtain ⟨hhead, hrest⟩ := List.pairwise_cons.1 h
    unfold insertEntry
    split
    · rename_i hk
      subst hk
      exact List.pairwise_cons.2 ⟨hhead, hrest⟩
    · rename_i hne
      split
      · rename_i hlt
        refine List.pairwise_cons.2 ⟨fun e he => ?_, h⟩
        rcases List.mem_cons.1 he with rfl | he
        · exact hlt
        · exact List.lt_trans hlt (hhead e he)
      · rename_i hnlt
        refine List.pairwise_cons.2 ⟨fun e he => ?_, ih hrest⟩
        rcases mem_insertEntry he with rfl | he
        · exact lt_of_not_lt hne hnlt
        · exact hhead e he

/-- Binds a key to a value. -/
def insert (d : Dict α) (key : Text) (value : α) : Dict α :=
  ⟨insertEntry key value d.entries, sorted_insertEntry key value d.sorted⟩

/-- Inserting a binding changes what its own key finds and nothing else. -/
theorem valueIn?_insertEntry (key other : Text) (value : α) (l : List (Text × α)) :
    valueIn? other (insertEntry key value l)
      = if other = key then some value else valueIn? other l := by
  induction l with
  | nil => simp [insertEntry, valueIn?]
  | cons head rest ih =>
    obtain ⟨k, v⟩ := head
    unfold insertEntry
    split
    · rename_i hk
      subst hk
      simp only [valueIn?]
      split <;> rfl
    · rename_i hne
      split
      · simp [valueIn?]
      · simp only [valueIn?, ih]
        split
        · rename_i ho
          subst ho
          rw [if_neg (Ne.symm hne)]
        · rfl

/-- After an insertion the key has the new value and the others have what they had. -/
theorem find?_insert (d : Dict α) (key other : Text) (value : α) :
    (d.insert key value).find? other = if other = key then some value else d.find? other :=
  valueIn?_insertEntry key other value d.entries

/-- A key below all keys of a list finds nothing in it. -/
theorem valueIn?_eq_none {key : Text} {l : List (Text × α)} (h : ∀ e ∈ l, key < e.1) :
    valueIn? key l = none := by
  induction l with
  | nil => rfl
  | cons head rest ih =>
    have hne : key ≠ head.1 := fun heq => List.lt_irrefl key (by
      have := h head List.mem_cons_self
      rwa [← heq] at this)
    simp only [valueIn?, if_neg hne]
    exact ih fun e he => h e (List.mem_cons_of_mem _ he)

/-- Sorted lists of bindings that find the same are the same. -/
theorem eq_of_valueIn? {l m : List (Text × α)} (hl : l.Pairwise fun a b => a.1 < b.1)
    (hm : m.Pairwise fun a b => a.1 < b.1) (h : ∀ key, valueIn? key l = valueIn? key m) :
    l = m := by
  induction l generalizing m with
  | nil =>
    cases m with
    | nil => rfl
    | cons head rest => simpa [valueIn?] using h head.1
  | cons a l ih =>
    cases m with
    | nil => simpa [valueIn?] using h a.1
    | cons b m =>
      obtain ⟨ha, hl'⟩ := List.pairwise_cons.1 hl
      obtain ⟨hb, hm'⟩ := List.pairwise_cons.1 hm
      by_cases hab : a.1 = b.1
      · have hhead := h a.1
        simp only [valueIn?, ↓reduceIte, hab, Option.some.injEq] at hhead
        have hrest : l = m := by
          refine ih hl' hm' fun key => ?_
          by_cases hk : key = a.1
          · rw [hk, valueIn?_eq_none ha, valueIn?_eq_none (hab ▸ hb)]
          · have := h key
            simpa [valueIn?, hk, hab ▸ hk] using this
        rw [hrest, Prod.ext hab hhead]
      · by_cases hlt : a.1 < b.1
        · have := h a.1
          rw [valueIn?_eq_none (l := b :: m) fun e he => by
            rcases List.mem_cons.1 he with rfl | he
            · exact hlt
            · exact List.lt_trans hlt (hb e he)] at this
          simp [valueIn?] at this
        · have hgt := lt_of_not_lt hab hlt
          have := h b.1
          rw [valueIn?_eq_none (l := a :: l) fun e he => by
            rcases List.mem_cons.1 he with rfl | he
            · exact hgt
            · exact List.lt_trans hgt (ha e he)] at this
          simp [valueIn?] at this

/-- A dictionary is determined by what its keys find. -/
theorem ext_find? {d e : Dict α} (h : ∀ key, d.find? key = e.find? key) : d = e := by
  have := eq_of_valueIn? d.sorted e.sorted h
  cases d
  cases e
  cases this
  rfl

/-- Removes a key. -/
def erase (d : Dict α) (key : Text) : Dict α :=
  ⟨d.entries.filter fun e => e.1 ≠ key, d.sorted.filter _⟩

/-- After a removal the key finds nothing and the others what they had. -/
theorem find?_erase (d : Dict α) (key other : Text) :
    (d.erase key).find? other = if other = key then none else d.find? other := by
  unfold find? erase
  dsimp only
  induction d.entries with
  | nil => simp [valueIn?]
  | cons head rest ih =>
    obtain ⟨k, v⟩ := head
    by_cases hk : k = key
    · subst hk
      rw [List.filter_cons_of_neg (by simp), ih]
      by_cases ho : other = k
      · simp [ho]
      · simp [valueIn?, ho]
    · rw [List.filter_cons_of_pos (by simpa using hk)]
      simp only [valueIn?, ih]
      by_cases ho : other = k
      · subst ho
        simp [hk]
      · simp [ho]

/-- An insertion makes room for a key that is new. -/
theorem length_insertEntry (key : Text) (value : α) {l : List (Text × α)}
    (h : l.Pairwise fun a b => a.1 < b.1) :
    (insertEntry key value l).length =
      if (valueIn? key l).isSome then l.length else l.length + 1 := by
  induction l with
  | nil => rfl
  | cons head rest ih =>
    obtain ⟨k, v⟩ := head
    obtain ⟨hhead, hrest⟩ := List.pairwise_cons.1 h
    unfold insertEntry
    split
    · rename_i hk
      simp [valueIn?, hk]
    · rename_i hne
      split
      · rename_i hlt
        -- the keys to come are greater still
        have hnone : valueIn? key rest = none :=
          valueIn?_eq_none fun e he => List.lt_trans hlt (hhead e he)
        simp [valueIn?, hne, hnone]
      · rw [List.length_cons, ih hrest, valueIn?, if_neg hne]
        split <;> rfl

/-- A new key makes a dictionary larger by one, and any other leaves its size as it is. -/
theorem size_insert (d : Dict α) (key : Text) (value : α) :
    (d.insert key value).size = if d.contains key then d.size else d.size + 1 :=
  length_insertEntry key value d.sorted

/-- A key that is removed was there once. -/
theorem size_erase {d : Dict α} {key : Text} (h : d.contains key = true) :
    (d.erase key).size + 1 = d.size := by
  obtain ⟨l, hl⟩ := d
  change (valueIn? key l).isSome = true at h
  change (l.filter fun e => e.1 ≠ key).length + 1 = l.length
  induction l with
  | nil => cases h
  | cons head rest ih =>
    obtain ⟨k, v⟩ := head
    obtain ⟨hhead, hrest⟩ := List.pairwise_cons.1 hl
    by_cases hk : key = k
    · subst hk
      have hkept : ∀ e ∈ rest, decide (e.1 ≠ key) = true := by
        intro e he
        have hlt : key < e.1 := hhead e he
        refine decide_eq_true fun heq => ?_
        rw [heq] at hlt
        exact List.lt_irrefl key hlt
      rw [List.filter_cons_of_neg (by simp), List.filter_eq_self.2 hkept, List.length_cons]
    · have hin : (valueIn? key rest).isSome = true := by
        rwa [valueIn?, if_neg hk] at h
      rw [List.filter_cons_of_pos (by simpa using Ne.symm hk), List.length_cons, List.length_cons,
        ih hrest hin]

/-- The dictionary of a list of bindings, of which the later ones win. -/
def ofList (bindings : List (Text × α)) : Dict α :=
  bindings.foldl (fun d e => d.insert e.1 e.2) empty

end Dict

end Reckon
