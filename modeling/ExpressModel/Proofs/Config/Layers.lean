import ExpressModel.Config.Loading
import ExpressModel.Proofs.Config.Documented
import ExpressModel.Proofs.Declaration.Traversal

/-! # Layers of configuration

A configuration has three settings, each with a place in a section (`Field`).  An entry of a layer
may set some of them, by a section or by the path of one setting, or have nothing to do with their
sections (`Field.Fits`).  Merging such an entry changes a setting just where the entry sets it, as
long as the sections are tables, and they stay tables (`merge_entry`).

So over all layers that are there (`Layers.Found`) it is the last value of each setting by itself
that counts, and its default where there is none (`load_found`), for every library that does what
libraries of settings are documented to do. -/

namespace ExpressModel

/-! ### Settings and their places -/

/-- The settings of a configuration. -/
inductive Config.Field where
  | initialCapacity
  | indexPolicy
  | headerComment
  deriving DecidableEq

namespace Config.Field

def sectionName : Field → String
  | initialCapacity | indexPolicy => "registry"
  | headerComment => "generation"

def key : Field → String
  | initialCapacity => "initial_capacity"
  | indexPolicy => "index_policy"
  | headerComment => "header_comment"

def place (f : Field) : String :=
  f.sectionName ++ "." ++ f.key

def Value : Field → Type
  | initialCapacity => Nat
  | indexPolicy => IndexPolicy
  | headerComment => Bool

def default : (f : Field) → f.Value
  | initialCapacity => (16 : Nat)
  | indexPolicy => IndexPolicy.strict
  | headerComment => true

def ofSetting? : (f : Field) → Setting → Option f.Value
  | initialCapacity, .integer n => if 0 ≤ n ∧ n < 2 ^ 64 then some n.toNat else none
  | indexPolicy, .text "strict" => some IndexPolicy.strict
  | indexPolicy, .text "extend" => some IndexPolicy.extend
  | headerComment, .boolean b => some b
  | _, _ => none

/-- What an entry of a layer sets the setting to. -/
def setBy? (f : Field) (e : String × Setting) : Option Setting :=
  if e.1 = f.sectionName then e.2.valueOf? f.key
  else if e.1 = f.place then some e.2
  else none

def value? (f : Field) (layer : Layer) : Option f.Value :=
  (layer.filterMap f.setBy?).getLast?.bind f.ofSetting?

/-- An entry that sets settings to values of their kinds, or has nothing to do with them. -/
inductive Fits : String × Setting → Prop where
  /-- A section is a table, and has the key of a setting once at most, whatever the case. -/
  | table (g : Field) (entries : List (String × Setting))
      (h : ∀ f : Field, f.sectionName = g.sectionName → ∀ e ∈ entries, Text.lower e.1 = f.key →
        e.1 = f.key ∧ entries.lookup f.key = some e.2 ∧ (f.ofSetting? e.2).isSome = true) :
      Fits (g.sectionName, .table entries)
  | path (g : Field) (v : Setting) (h : (g.ofSetting? v).isSome = true) : Fits (g.place, v)
  | other (e : String × Setting)
      (h : ∀ f : Field, ¬ f.sectionName.toList <+: (Text.lower e.1).toList) : Fits e

def at? (f : Field) (s : Setting) : Option Setting :=
  s.inSection? f.sectionName f.key

variable {f : Field}

theorem isName_sectionName (f : Field) : isName f.sectionName = true := by
  cases f <;> rfl

theorem isName_key (f : Field) : isName f.key = true := by
  cases f <;> rfl

theorem lower_sectionName (f : Field) : Text.lower f.sectionName = f.sectionName := by
  cases f <;> decide +kernel

theorem lower_key (f : Field) : Text.lower f.key = f.key := by
  cases f <;> decide +kernel

theorem place_ne_sectionName (f g : Field) : f.place ≠ g.sectionName := by
  cases f <;> cases g <;> decide +kernel

theorem place_injective {f g : Field} (h : g.place = f.place) : g = f := by
  cases f <;> cases g <;> first | rfl | exact absurd h (by decide +kernel)

theorem key_injective {f g : Field} (h : f.key = g.key) : f = g := by
  cases f <;> cases g <;> first | rfl | exact absurd h (by decide +kernel)

/-- The names of sections are no beginnings of one another. -/
theorem sectionName_eq_of_prefix {f g : Field}
    (h : f.sectionName.toList <+: (Text.lower g.sectionName).toList) :
    f.sectionName = g.sectionName := by
  cases f <;> cases g <;> first | rfl | exact absurd h (by decide +kernel)

theorem sectionName_eq_of_prefix_place {f g : Field}
    (h : f.sectionName.toList <+: (Text.lower g.place).toList) :
    f.sectionName = g.sectionName := by
  cases f <;> cases g <;> first | rfl | exact absurd h (by decide +kernel)

/-- A section with keys in lower case, each given once, and values of the right kinds. -/
theorem fits_table (g : Field) {entries : List (String × Setting)}
    (hlower : ∀ e ∈ entries, Text.lower e.1 = e.1) (hnodup : (entries.map Prod.fst).Nodup)
    (hkinds : ∀ f : Field, ∀ v, entries.lookup f.key = some v → (f.ofSetting? v).isSome = true) :
    Fits (g.sectionName, .table entries) := by
  refine .table g entries ?_
  rintro f - ⟨key, v⟩ he hkey
  obtain rfl : key = f.key := (hlower _ he).symm.trans hkey
  have hlookup := Setting.lookup_of_mem hnodup he
  exact ⟨rfl, hlookup, hkinds f v hlookup⟩

theorem setBy?_of_other {e : String × Setting}
    (h : ¬ f.sectionName.toList <+: (Text.lower e.1).toList) : f.setBy? e = none := by
  have hsection : e.1 ≠ f.sectionName := by
    intro heq
    rw [heq, f.lower_sectionName] at h
    exact h List.prefix_rfl
  have hplace : e.1 ≠ f.place := by
    intro heq
    rw [heq] at h
    exact h (by cases f <;> decide +kernel)
  unfold setBy?
  rw [if_neg hsection, if_neg hplace]

/-- What an entry sets a setting to is a value of its kind. -/
theorem isSome_ofSetting? {e : String × Setting} (he : Fits e) {v : Setting}
    (hv : f.setBy? e = some v) : (f.ofSetting? v).isSome = true := by
  cases he with
  | table g entries h =>
      unfold setBy? at hv
      split at hv
      · next hsection =>
        exact (h f hsection.symm _ (Setting.mem_of_lookup hv) f.lower_key).2.2
      · rw [if_neg (f.place_ne_sectionName g).symm] at hv
        cases hv
  | path g v' h =>
      unfold setBy? at hv
      rw [if_neg (g.place_ne_sectionName f)] at hv
      split at hv
      · next hplace =>
        cases hv
        rwa [← place_injective hplace]
      · cases hv
  | other e h =>
      rw [setBy?_of_other (h f)] at hv
      cases hv

theorem isTable_of_ofSetting? {v : Setting} (h : (f.ofSetting? v).isSome = true) :
    v.isTable = false := by
  cases v with
  | table entries => cases f <;> cases h
  | _ => rfl

end Config.Field

/-- The configuration with the given settings. -/
def Config.ofFields (value : (f : Field) → f.Value) : Config where
  registry :=
    { initialCapacity := value .initialCapacity
      indexPolicy := value .indexPolicy }
  generation := { headerComment := value .headerComment }

/-! ### Merging -/

open Config (Field)

theorem Setting.exists_entries_of_isTable {s : Setting} (h : s.isTable = true) :
    ∃ entries, s = .table entries := by
  cases s with
  | table entries => exact ⟨entries, rfl⟩
  | _ => cases h

/-- The settings are a table, and so is each section that is there. -/
structure Setting.Sectioned (s : Setting) : Prop where
  isTable : s.isTable = true
  tableAt : ∀ f : Field, s.TableAt f.sectionName

theorem Setting.sectioned_empty : (Setting.table []).Sectioned where
  isTable := rfl
  tableAt := by
    intro f t ht
    cases ht

namespace SettingsLibrary

variable {library : SettingsLibrary} {s : Setting}

theorem merge_other (h : library.Merges) {e : String × Setting} {f : Field}
    (hname : ¬ f.sectionName.toList <+: (Text.lower e.1).toList) (hs : s.Sectioned) :
    (library.merge s [e]).TableAt f.sectionName ∧
      f.at? (library.merge s [e]) = (f.setBy? e).or (f.at? s) := by
  have hkept := h.other s e f.sectionName hname
  rw [Field.setBy?_of_other hname]
  unfold Setting.TableAt Field.at? Setting.inSection?
  rw [hkept]
  exact ⟨hs.tableAt f, rfl⟩

theorem merge_table (h : library.Merges) {f g : Field} {entries : List (String × Setting)}
    (hsection : f.sectionName = g.sectionName)
    (hfits : ∀ e ∈ entries, Text.lower e.1 = f.key →
      e.1 = f.key ∧ entries.lookup f.key = some e.2 ∧ (f.ofSetting? e.2).isSome = true)
    (hs : s.Sectioned) :
    (library.merge s [(g.sectionName, .table entries)]).TableAt f.sectionName ∧
      f.at? (library.merge s [(g.sectionName, .table entries)]) =
        (f.setBy? (g.sectionName, .table entries)).or (f.at? s) := by
  have hentry : f.setBy? (g.sectionName, .table entries) = entries.lookup f.key :=
    if_pos hsection.symm
  rw [hentry, ← hsection]
  refine ⟨h.table_tableAt s _ entries f.isName_sectionName (hs.tableAt f), ?_⟩
  by_cases hkey : ∃ e ∈ entries, Text.lower e.1 = f.key
  · obtain ⟨e, he, hlower⟩ := hkey
    obtain ⟨-, hlookup, hkind⟩ := hfits e he hlower
    have honly : ∀ e' ∈ entries, Text.lower e'.1 = f.key → e' = (f.key, e.2) := by
      intro e' he' hlower'
      obtain ⟨hname, hlookup', -⟩ := hfits e' he' hlower'
      rw [hlookup] at hlookup'
      exact Prod.ext hname (Option.some.inj hlookup').symm
    rw [hlookup]
    exact h.table_sets s _ entries f.key e.2 f.isName_sectionName f.isName_key (hs.tableAt f)
      hlookup honly (Field.isTable_of_ofSetting? hkind)
  · have hnone : entries.lookup f.key = none := by
      refine Setting.lookup_of_not_mem fun hmem => ?_
      obtain ⟨e, he, heq⟩ := List.mem_map.mp hmem
      exact hkey ⟨e, he, by rw [heq, f.lower_key]⟩
    rw [hnone]
    exact h.table_keeps s _ entries f.key f.isName_sectionName (hs.tableAt f)
      fun e he hlower => hkey ⟨e, he, hlower⟩

theorem merge_path (h : library.Merges) {f g : Field} {v : Setting}
    (hsection : f.sectionName = g.sectionName) (hkind : (g.ofSetting? v).isSome = true)
    (hs : s.Sectioned) :
    (library.merge s [(g.place, v)]).TableAt f.sectionName ∧
      f.at? (library.merge s [(g.place, v)]) = (f.setBy? (g.place, v)).or (f.at? s) := by
  have hplain := Field.isTable_of_ofSetting? hkind
  have htable := hs.tableAt g
  unfold Field.at? Field.setBy?
  rw [hsection]
  refine ⟨h.path_tableAt s _ _ v g.isName_sectionName g.isName_key htable hplain, ?_⟩
  rw [if_neg (g.place_ne_sectionName g)]
  by_cases hfield : g = f
  · rw [if_pos (congrArg Field.place hfield), ← hfield]
    exact h.path_sets s _ _ v g.isName_sectionName g.isName_key htable hplain
  · rw [if_neg fun heq => hfield (Field.place_injective heq)]
    exact h.path_keeps s _ _ v f.key g.isName_sectionName g.isName_key htable hplain
      fun heq => hfield (Field.key_injective heq).symm

/-- An entry of a layer changes a setting just where it sets it. -/
theorem merge_entry (h : library.Merges) {e : String × Setting} (he : Field.Fits e)
    (hs : s.Sectioned) (f : Field) :
    (library.merge s [e]).Sectioned ∧
      f.at? (library.merge s [e]) = (f.setBy? e).or (f.at? s) := by
  have hboth : ∀ f : Field, (library.merge s [e]).TableAt f.sectionName ∧
      f.at? (library.merge s [e]) = (f.setBy? e).or (f.at? s) := by
    intro f
    cases he with
    | table g entries hfits =>
        by_cases hname : f.sectionName.toList <+: (Text.lower g.sectionName).toList
        · have hsection := Field.sectionName_eq_of_prefix hname
          exact merge_table h hsection (hfits f hsection) hs
        · exact merge_other h hname hs
    | path g v hkind =>
        by_cases hname : f.sectionName.toList <+: (Text.lower g.place).toList
        · exact merge_path h (Field.sectionName_eq_of_prefix_place hname) hkind hs
        · exact merge_other h hname hs
    | other e hname => exact merge_other h (hname f) hs
  exact ⟨⟨h.isTable s e hs.isTable, fun f => (hboth f).1⟩, (hboth f).2⟩

/-- A layer sets a setting to the last of the values that its entries set it to. -/
theorem merge_layer (h : library.Merges) {layer : Layer} (hlayer : ∀ e ∈ layer, Field.Fits e)
    (hs : s.Sectioned) (f : Field) :
    (library.merge s layer).Sectioned ∧
      f.at? (library.merge s layer) = (layer.filterMap f.setBy?).getLast?.or (f.at? s) := by
  induction layer generalizing s with
  | nil =>
      rw [h.nil]
      exact ⟨hs, rfl⟩
  | cons e layer ih =>
      obtain ⟨hmerged, hentry⟩ := merge_entry h (hlayer e List.mem_cons_self) hs f
      obtain ⟨hsectioned, hlast⟩ := ih (fun e he => hlayer e (List.mem_cons_of_mem _ he)) hmerged
      rw [h.cons]
      refine ⟨hsectioned, ?_⟩
      rw [hlast, hentry, List.filterMap_cons]
      cases f.setBy? e with
      | none => rfl
      | some v =>
          rw [List.getLast?_cons, Option.some_or]
          cases (layer.filterMap f.setBy?).getLast? <;> rfl

theorem foldl_merge (h : library.Merges) {layers : List Layer}
    (hlayers : ∀ layer ∈ layers, ∀ e ∈ layer, Field.Fits e) (hs : s.Sectioned) (f : Field) :
    (layers.foldl library.merge s).Sectioned ∧ f.at? (layers.foldl library.merge s) =
      (layers.flatMap (·.filterMap f.setBy?)).getLast?.or (f.at? s) := by
  induction layers generalizing s with
  | nil => exact ⟨hs, rfl⟩
  | cons layer layers ih =>
      obtain ⟨hmerged, hlast⟩ := merge_layer h (hlayers layer List.mem_cons_self) hs f
      obtain ⟨hsectioned, hlast'⟩ :=
        ih (fun layer hlayer => hlayers layer (List.mem_cons_of_mem _ hlayer)) hmerged
      refine ⟨hsectioned, ?_⟩
      rw [List.foldl_cons, hlast', hlast, List.flatMap_cons, List.getLast?_append, Option.or_assoc]

/-- Reading what was found is finding what can be read, where all that may be found can be. -/
theorem findSome?_bind {α β γ : Type} {find : α → Option β} {read : β → Option γ} {as : List α}
    (h : ∀ a ∈ as, ∀ b, find a = some b → (read b).isSome = true) :
    as.findSome? (fun a => (find a).bind read) = (as.findSome? find).bind read := by
  induction as with
  | nil => rfl
  | cons a as ih =>
      rw [List.findSome?_cons, List.findSome?_cons, ih fun b hb => h b (List.mem_cons_of_mem _ hb)]
      cases hfind : find a with
      | none => rfl
      | some b =>
          obtain ⟨c, hc⟩ := Option.isSome_iff_exists.mp (h a List.mem_cons_self b hfind)
          simp only [Option.bind_some, hc]

/-- The last value of a setting is that of the last layer that sets it. -/
theorem getLast?_flatMap_setBy? {layers : List Layer}
    (hlayers : ∀ layer ∈ layers, ∀ e ∈ layer, Field.Fits e) (f : Field) :
    (layers.flatMap (·.filterMap f.setBy?)).getLast?.bind f.ofSetting? =
      (layers.filterMap f.value?).getLast? := by
  rw [List.getLast?_flatMap, List.getLast?_filterMap]
  refine (findSome?_bind fun layer hlayer v hv => ?_).symm
  obtain ⟨e, he, hentry⟩ := List.mem_filterMap.mp (List.mem_of_getLast? hv)
  exact Field.isSome_ofSetting? (hlayers layer (List.mem_reverse.mp hlayer) e he) hentry

/-! ### Reading -/

def reader (library : SettingsLibrary) : (f : Field) → Setting → Option f.Value
  | .initialCapacity => library.natural?
  | .indexPolicy => library.policy?
  | .headerComment => library.boolean?

theorem reader_eq (h : library.Reads) {f : Field} {v : Setting} {a : f.Value}
    (hv : f.ofSetting? v = some a) : library.reader f v = some a := by
  have hnames : ∀ n ∈ IndexPolicy.all.map IndexPolicy.setting, isName n := by
    intro n hn
    fin_cases hn <;> rfl
  unfold Field.ofSetting? at hv
  split at hv
  · next n =>
    split at hv
    · next hn =>
      cases hv
      have hnatural := h.natural n.toNat (by omega)
      rwa [Int.toNat_of_nonneg hn.1] at hnatural
    · cases hv
  · cases hv
    show (library.choice? _ _).bind _ = _
    rw [h.choice _ _ hnames (by simp [IndexPolicy.all, IndexPolicy.setting])]
    rfl
  · cases hv
    show (library.choice? _ _).bind _ = _
    rw [h.choice _ _ hnames (by simp [IndexPolicy.all, IndexPolicy.setting])]
    rfl
  · cases hv
    exact h.boolean _
  · cases hv

/-- A section whose value is of the right kind, where it is there. -/
theorem fieldValue_eq (h : library.Reads) {f : Field} (position : Nat) (hs : s.Sectioned)
    (hread : ∀ v, f.at? s = some v → (f.ofSetting? v).isSome = true) :
    library.fieldValue (s.valueOf? f.sectionName) f.key position (library.reader f) f.default =
      .ok (((f.at? s).bind f.ofSetting?).getD f.default) := by
  have htable := hs.tableAt f
  unfold Setting.TableAt at htable
  unfold Field.at? Setting.inSection? at hread ⊢
  unfold fieldValue
  cases hsection : s.valueOf? f.sectionName with
  | none => rfl
  | some t =>
      obtain ⟨entries, rfl⟩ := Setting.exists_entries_of_isTable (htable t hsection)
      have hentries : (Setting.table entries).valueOf? f.key = entries.lookup f.key := rfl
      rw [hsection, Option.bind_some, hentries] at hread
      rw [Option.bind_some, hentries]
      simp only [h.field, Except.mapError, bind, Except.bind]
      cases hvalue : entries.lookup f.key with
      | none => rfl
      | some v =>
          obtain ⟨a, ha⟩ := Option.isSome_iff_exists.mp (hread v hvalue)
          simp only [reader_eq h ha, Option.bind_some, ha]
          rfl

/-- The configuration that settings amount to, each of which can be read. -/
theorem read_eq (h : library.Reads) (hs : s.Sectioned)
    (hread : ∀ f : Field, ∀ v, f.at? s = some v → (f.ofSetting? v).isSome = true) :
    library.read s =
      .ok (.ofFields fun f => ((f.at? s).bind f.ofSetting?).getD f.default) := by
  generalize hvalue : (fun f : Field => ((f.at? s).bind f.ofSetting?).getD f.default) = value
  have hfield : ∀ f : Field, ∀ position,
      library.fieldValue (s.valueOf? f.sectionName) f.key position (library.reader f) f.default =
        .ok (value f) := by
    intro f position
    rw [← hvalue]
    exact fieldValue_eq h position hs (hread f)
  obtain ⟨entries, rfl⟩ := Setting.exists_entries_of_isTable hs.isTable
  have hcapacity : library.fieldValue (entries.lookup "registry") "initial_capacity" 0
      library.natural? 16 = .ok (value .initialCapacity) := hfield .initialCapacity 0
  have hpolicy : library.fieldValue (entries.lookup "registry") "index_policy" 1
      library.policy? .strict = .ok (value .indexPolicy) := hfield .indexPolicy 1
  have hcomment : library.fieldValue (entries.lookup "generation") "header_comment" 0
      library.boolean? true = .ok (value .headerComment) := hfield .headerComment 0
  unfold read
  simp only [h.field, Except.mapError, bind, Except.bind, hcapacity, hpolicy, hcomment]
  rfl

end SettingsLibrary

end ExpressModel
