/-
  CallFeed — trimmed texts, and the items of a list.

  * `Trims cs core`: a text is `core` with blanks on either side of it, and `core` has none at
    its ends. `trim_eq_iff`: trimming leaves just that;
  * `Holds ps xs`: of the pieces `ps` some are blank, and the others are the items `xs` with
    blanks around them, one after the other;
  * `items_eq_iff`: the items of a text are those that its pieces between commas hold, so that
    items joined by commas are read back whatever blanks and commas are added
    (`items_intercalate` adds none).
-/
import CallFeed.Text.Blank

namespace CallFeed.Text

variable {cs core before after : List Char}

/-! ## Trimming -/

/-- All characters are blank. -/
def AllBlank (cs : List Char) : Prop := ∀ c ∈ cs, isBlank c = true

/-- There is no blank at the ends. -/
structure IsTrim (cs : List Char) : Prop where
  first : ∀ c ∈ cs.head?, isBlank c = false
  last : ∀ c ∈ cs.getLast?, isBlank c = false

/-- `core` is what is left of a text without the blanks at its ends. -/
def Trims (cs core : List Char) : Prop :=
  ∃ before after, cs = before ++ core ++ after ∧ AllBlank before ∧ AllBlank after ∧ IsTrim core

theorem AllBlank.reverse (hb : AllBlank cs) : AllBlank cs.reverse :=
  fun c hc => hb c (List.mem_reverse.1 hc)

theorem isTrim_nil : IsTrim [] := ⟨nofun, nofun⟩

theorem trimStart_append (hb : AllBlank before) : trimStart (before ++ cs) = trimStart cs :=
  List.dropWhile_append_of_pos hb

theorem trimEnd_append (ha : AllBlank after) : trimEnd (cs ++ after) = trimEnd cs := by
  rw [trimEnd, List.reverse_append, trimStart_append ha.reverse, ← trimEnd]

theorem exists_trimStart (cs : List Char) :
    ∃ before, cs = before ++ trimStart cs ∧ AllBlank before ∧
      ∀ c ∈ (trimStart cs).head?, isBlank c = false := by
  refine ⟨cs.takeWhile isBlank, List.takeWhile_append_dropWhile.symm,
    fun c hc => List.all_eq_true.1 List.all_takeWhile c hc, fun c hc => ?_⟩
  have hfirst := List.head?_dropWhile_not isBlank cs
  rw [show (cs.dropWhile isBlank).head? = some c from hc] at hfirst
  exact hfirst

theorem exists_trimEnd (cs : List Char) :
    ∃ after, cs = trimEnd cs ++ after ∧ AllBlank after ∧
      ∀ c ∈ (trimEnd cs).getLast?, isBlank c = false := by
  obtain ⟨before, hcs, hb, hfirst⟩ := exists_trimStart cs.reverse
  refine ⟨before.reverse, ?_, hb.reverse, fun c hc => hfirst c ?_⟩
  · rw [trimEnd, ← List.reverse_append, ← hcs, List.reverse_reverse]
  · rwa [trimEnd, List.getLast?_reverse] at hc

theorem trims_trim (cs : List Char) : Trims cs (trim cs) := by
  obtain ⟨before, hstart, hb, hfirst⟩ := exists_trimStart cs
  obtain ⟨after, hend, ha, hlast⟩ := exists_trimEnd (trimStart cs)
  refine ⟨before, after, ?_, hb, ha, fun c hc => hfirst c ?_, hlast⟩
  · rw [List.append_assoc, trim, ← hend, ← hstart]
  · -- what is left begins as the text does without the blanks in front
    have hhead : (trimEnd (trimStart cs)).head? = some c := hc
    rw [hend, List.head?_append, hhead]
    rfl

theorem Trims.trim_eq (h : Trims cs core) : trim cs = core := by
  obtain ⟨before, after, rfl, hb, ha, hcore⟩ := h
  rw [List.append_assoc, trim, trimStart_append hb]
  cases core with
  | nil =>
    -- there are blanks alone
    have hnone : trimStart after = [] := by
      rw [← List.append_nil after, trimStart_append ha]
      rfl
    rw [List.nil_append, hnone]
    rfl
  | cons c r =>
    rw [trimStart_eq_self (by simpa using hcore.first), trimEnd_append ha,
      trimEnd_eq_self hcore.last]

/-- Trimming drops the blanks at both ends and nothing else. -/
theorem trim_eq_iff : trim cs = core ↔ Trims cs core := by
  constructor
  · rintro rfl
    exact trims_trim cs
  · exact Trims.trim_eq

theorem Trims.subset (h : Trims cs core) : core ⊆ cs := by
  obtain ⟨before, after, rfl, -, -, -⟩ := h
  intro c hc
  simp [hc]

theorem trims_nil_iff : Trims cs [] ↔ AllBlank cs := by
  constructor
  · rintro ⟨before, after, rfl, hb, ha, -⟩ c hc
    rw [List.append_nil] at hc
    exact (List.mem_append.1 hc).elim (hb c) (ha c)
  · exact fun hb => ⟨cs, [], by simp, hb, nofun, isTrim_nil⟩

/-! ## Items -/

theorem pieces_eq_splitOn (sep : Char) (cs : List Char) :
    pieces (· = sep) cs = cs.splitOn sep := by
  rw [List.splitOn]
  induction cs with
  | nil => rfl
  | cons c r ih =>
    have hsome := List.splitOnP_ne_nil (· == sep) r
    rw [pieces, List.splitOnP_cons_eq_if_modifyHead, ih]
    cases hp : r.splitOnP (· == sep) with
    | nil => exact absurd hp hsome
    | cons p ps => by_cases hc : c = sep <;> simp [hc]

/-- No piece has the sign at which a text is cut. -/
theorem not_mem_of_mem_splitOn {sep : Char} {p : List Char} (hp : p ∈ cs.splitOn sep) : sep ∉ p := by
  rw [← pieces_eq_splitOn] at hp
  induction cs generalizing p with
  | nil => simp [List.mem_singleton.1 hp]
  | cons c r ih =>
    rw [pieces] at hp
    split at hp
    · rename_i hnil
      exact absurd hnil (pieces_ne_nil _ r)
    · rename_i q qs hq
      rw [hq] at ih
      split at hp
      · rcases List.mem_cons.1 hp with rfl | hp
        · exact List.not_mem_nil
        · exact ih hp
      · rename_i hc
        rcases List.mem_cons.1 hp with rfl | hp
        · have hq := ih List.mem_cons_self
          simp_all [eq_comm]
        · exact ih (List.mem_cons_of_mem _ hp)

/-- An item of a list: there is something in it, but no comma, and no blank at its ends. -/
structure IsItem (x : String) : Prop where
  nonempty : x ≠ ""
  noComma : ',' ∉ x.toList
  isTrim : IsTrim x.toList

/-- The pieces hold these items, each in a piece of its own and in this order. -/
inductive Holds : List (List Char) → List String → Prop
  | nil : Holds [] []
  | blank {p : List Char} {ps xs} : AllBlank p → Holds ps xs → Holds (p :: ps) xs
  | item {p : List Char} {ps x xs} : IsItem x → Trims p x.toList → Holds ps xs →
      Holds (p :: ps) (x :: xs)

/-- The text holds these items between its commas. -/
def Lists (text : String) (xs : List String) : Prop :=
  ∃ ps, text.toList = [','].intercalate ps ∧ Holds ps xs

variable {ps : List (List Char)} {x text : String} {xs : List String}

/-- The items of pieces. -/
def itemsOf (ps : List (List Char)) : List String :=
  ((ps.map trim).filter (· ≠ [])).map String.ofList

theorem items_eq (text : String) : items text = itemsOf (text.toList.splitOn ',') := by
  rw [items, pieces_eq_splitOn, itemsOf]

theorem Holds.itemsOf_eq (h : Holds ps xs) : itemsOf ps = xs := by
  induction h with
  | nil => rfl
  | blank hb _ ih =>
    have hp := (trims_nil_iff.2 hb).trim_eq
    simpa [itemsOf, hp] using ih
  | @item p ps x xs hx hp _ ih =>
    have hkept : trim p ≠ [] := by
      rw [hp.trim_eq]
      exact fun hnil => hx.nonempty (String.toList_eq_nil_iff.1 hnil)
    rw [itemsOf, List.map_cons, List.filter_cons_of_pos (by simpa using hkept), List.map_cons,
      hp.trim_eq, String.ofList_toList, ← itemsOf, ih]

theorem holds_itemsOf (hcomma : ∀ p ∈ ps, ',' ∉ p) : Holds ps (itemsOf ps) := by
  induction ps with
  | nil => exact .nil
  | cons p ps ih =>
    have hrest := ih fun q hq => hcomma q (List.mem_cons_of_mem _ hq)
    have htrim := trims_trim p
    by_cases hp : trim p = []
    · rw [hp] at htrim
      simpa [itemsOf, hp] using hrest.blank (trims_nil_iff.1 htrim)
    · have hitem : IsItem (String.ofList (trim p)) := by
        refine ⟨by simpa using hp, ?_, ?_⟩ <;> rw [String.toList_ofList]
        · exact fun hmem => hcomma p List.mem_cons_self (htrim.subset hmem)
        · obtain ⟨-, -, -, -, -, hcore⟩ := htrim
          exact hcore
      rw [← String.toList_ofList (l := trim p)] at htrim
      simpa [itemsOf, hp] using hrest.item hitem htrim

theorem isBlank_comma : isBlank ',' = false := by decide

/-- Pieces that hold items have no comma. -/
theorem Holds.noComma (h : Holds ps xs) : ∀ p ∈ ps, ',' ∉ p := by
  have hblank : ∀ {q}, AllBlank q → ',' ∉ q := fun hb hmem =>
    absurd (hb _ hmem) (by simp [isBlank_comma])
  induction h with
  | nil => exact fun p hp => absurd hp List.not_mem_nil
  | blank hb _ ih => exact List.forall_mem_cons.2 ⟨hblank hb, ih⟩
  | item hx hp _ ih =>
    obtain ⟨before, after, rfl, hb, ha, -⟩ := hp
    refine List.forall_mem_cons.2 ⟨fun hmem => ?_, ih⟩
    rcases List.mem_append.1 hmem with hmem | hmem
    · exact (List.mem_append.1 hmem).elim (hblank hb) hx.noComma
    · exact hblank ha hmem

theorem Holds.isItem (h : Holds ps xs) : ∀ x ∈ xs, IsItem x := by
  induction h with
  | nil => exact fun x hx => absurd hx List.not_mem_nil
  | blank _ _ ih => exact ih
  | item hx _ _ ih => exact List.forall_mem_cons.2 ⟨hx, ih⟩

theorem Lists.isItem (h : Lists text xs) : ∀ x ∈ xs, IsItem x := by
  obtain ⟨ps, -, hps⟩ := h
  exact hps.isItem

/-- The items of a text are those that it holds between its commas. -/
theorem items_eq_iff : items text = xs ↔ Lists text xs := by
  constructor
  · rintro rfl
    refine ⟨text.toList.splitOn ',', (List.intercalate_splitOn ',').symm, ?_⟩
    rw [items_eq]
    exact holds_itemsOf fun p hp => not_mem_of_mem_splitOn hp
  · rintro ⟨ps, htext, hps⟩
    rw [items_eq, htext]
    cases ps with
    | nil =>
      cases hps
      rfl
    | cons p ps => rw [List.splitOn_intercalate ',' hps.noComma (by simp), hps.itemsOf_eq]

theorem mem_items_iff : x ∈ items text ↔
    x ≠ "" ∧ ∃ p ∈ text.toList.splitOn ',', Trims p x.toList := by
  rw [items_eq, itemsOf, List.mem_map]
  constructor
  · rintro ⟨core, hcore, rfl⟩
    obtain ⟨hmem, hne⟩ := List.mem_filter.1 hcore
    obtain ⟨p, hp, rfl⟩ := List.mem_map.1 hmem
    refine ⟨by simpa using hne, p, hp, ?_⟩
    rw [String.toList_ofList]
    exact trims_trim p
  · rintro ⟨hne, p, hp, htrim⟩
    have hx : x.toList ∈ (text.toList.splitOn ',').map trim :=
      List.mem_map.2 ⟨p, hp, htrim.trim_eq⟩
    exact ⟨x.toList, List.mem_filter.2 ⟨hx, by simpa using hne⟩, String.ofList_toList⟩

theorem holds_map_toList (hxs : ∀ x ∈ xs, IsItem x) : Holds (xs.map String.toList) xs := by
  induction xs with
  | nil => exact .nil
  | cons x xs ih =>
    obtain ⟨hx, hxs⟩ := List.forall_mem_cons.1 hxs
    exact .item hx ⟨[], [], by simp, nofun, nofun, hx.isTrim⟩ (ih hxs)

/-- Items joined by commas are read back. -/
theorem items_intercalate (hxs : ∀ x ∈ xs, IsItem x) : items (",".intercalate xs) = xs :=
  items_eq_iff.2 ⟨xs.map String.toList, String.toList_intercalate, holds_map_toList hxs⟩

end CallFeed.Text
