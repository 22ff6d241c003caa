import Mathlib
import ExpressModel.Config.Overlay
import ExpressModel.Config.Sources
import ExpressModel.Proofs.Config.Documented

/-! # Merging by paths

A source is merged by laying its values over what is at the paths that its keys stand for.  A path
begins with a beginning of its key (`exists_key_of_pathOf`), and names stand for themselves
(`pathOf_name`, `pathOf_names`).  A table that is laid over another sets its entries one after the
other (`overlay_table`).  So sources are merged as they should be (`plain_merges`). -/

namespace ExpressModel

/-! ### Names -/

section Names

variable {s : String}

theorem isName_iff : isName s ↔
    ∀ word ∈ s.toList.splitOn '_', word ≠ [] ∧ ∀ c ∈ word, c.isLower = true := by
  simp [isName]

theorem mem_intercalate {α : Type} {sep : List α} {words : List (List α)} {a : α}
    (h : a ∈ sep.intercalate words) : a ∈ sep ∨ ∃ word ∈ words, a ∈ word := by
  induction words with
  | nil => simp at h
  | cons word words ih =>
      cases words with
      | nil => exact .inr ⟨word, List.mem_cons_self, by simpa using h⟩
      | cons next words =>
          rw [List.intercalate_cons_cons, List.mem_append, List.mem_append] at h
          rcases h with (h | h) | h
          · exact .inr ⟨word, List.mem_cons_self, h⟩
          · exact .inl h
          · rcases ih h with h | ⟨word', hword', h⟩
            · exact .inl h
            · exact .inr ⟨word', List.mem_cons_of_mem _ hword', h⟩

theorem char_of_isName (h : isName s) {c : Char} (hc : c ∈ s.toList) :
    c.isLower = true ∨ c = '_' := by
  have hwords : ['_'].intercalate (s.toList.splitOn '_') = s.toList :=
    List.intercalate_splitOn '_'
  rw [← hwords] at hc
  rcases mem_intercalate hc with hc | ⟨word, hword, hc⟩
  · exact .inr (List.mem_singleton.mp hc)
  · exact .inl ((isName_iff.mp h word hword).2 c hc)

theorem ne_nil_of_isName (h : isName s) : s.toList ≠ [] := by
  intro hnil
  have hword := isName_iff.mp h []
  rw [hnil] at hword
  exact (hword List.mem_cons_self).1 rfl

theorem not_mem_of_isName (h : isName s) {c : Char} (hlower : c.isLower = false) (hc : c ≠ '_') :
    c ∉ s.toList := by
  intro hmem
  rcases char_of_isName h hmem with hl | rfl
  · rw [hlower] at hl
    cases hl
  · exact hc rfl

theorem lower_of_isName (h : isName s) : Text.lower s = s := by
  rw [← String.toList_inj, Text.toList_lower]
  refine (List.map_congr_left fun c hc => ?_).trans (List.map_id _)
  apply Char.toLower_eq_of_not_isUpper
  rcases char_of_isName h hc with hlower | rfl
  · exact Char.not_isUpper_of_isLower hlower
  · decide

end Names

/-- The first part of a text that is split is a beginning of it. -/
theorem prefix_of_splitOn {cs part : List Char} {parts : List (List Char)} {sep : Char}
    (h : cs.splitOn sep = part :: parts) : part <+: cs := by
  have hparts : [sep].intercalate (cs.splitOn sep) = cs := List.intercalate_splitOn sep
  rw [← hparts, h]
  cases parts with
  | nil =>
      rw [List.intercalate_singleton]
  | cons next parts =>
      rw [List.intercalate_cons_cons, List.append_assoc]
      exact List.prefix_append _ _

namespace Setting

/-! ### Tables -/

theorem lookup_putEntry_of_ne {key other : String} (h : other ≠ key) (value : Setting)
    (entries : List (String × Setting)) :
    (putEntry key value entries).lookup other = entries.lookup other := by
  have hother : (other == key) = false := beq_eq_false_iff_ne.mpr h
  induction entries with
  | nil => rw [putEntry, List.lookup_cons, hother]
  | cons e rest ih =>
      obtain ⟨k, v⟩ := e
      unfold putEntry
      by_cases hk : k = key
      · rw [if_pos hk, List.lookup_cons, List.lookup_cons, hk, hother]
      · rw [if_neg hk, List.lookup_cons, List.lookup_cons, ih]

theorem valueOf?_put_of_ne (s : Setting) {key other : String} (h : other ≠ key)
    (value : Setting) : (s.put key value).valueOf? other = s.valueOf? other :=
  lookup_putEntry_of_ne h value s.entries

@[simp] theorem isTable_put (s : Setting) (key : String) (value : Setting) :
    (s.put key value).isTable = true :=
  rfl

def overlayEntry (target : Setting) (entry : String × Setting) : Setting :=
  target.put (Text.lower entry.1) (overlay entry.2 (target.valueOf? (Text.lower entry.1)))

theorem overlay_table (entries : List (String × Setting)) (existing? : Option Setting) :
    overlay (table entries) existing? =
      entries.foldl overlayEntry (existing?.getD (table [])) := by
  rw [overlay]
  exact List.foldl_attach (f := overlayEntry)

theorem overlay_of_not_isTable {s : Setting} (h : s.isTable = false) (existing? : Option Setting) :
    overlay s existing? = s := by
  rw [overlay.eq_def]
  cases s with
  | table entries => cases h
  | _ => rfl

section Entries

variable {entries : List (String × Setting)} {key : String} {target v : Setting}

theorem isTable_foldl_overlayEntry (h : target.isTable = true) :
    (entries.foldl overlayEntry target).isTable = true := by
  induction entries generalizing target with
  | nil => exact h
  | cons e entries ih => exact ih (isTable_put ..)

theorem valueOf?_foldl_overlayEntry_of_ne (h : ∀ e ∈ entries, Text.lower e.1 ≠ key) :
    (entries.foldl overlayEntry target).valueOf? key = target.valueOf? key := by
  induction entries generalizing target with
  | nil => rfl
  | cons e entries ih =>
      rw [List.foldl_cons, ih fun e he => h e (List.mem_cons_of_mem _ he), overlayEntry,
        valueOf?_put_of_ne _ (h e List.mem_cons_self).symm]

/-- A key that all entries agree on has their value in the end, once one of them has been laid
over. -/
theorem valueOf?_foldl_overlayEntry (h : ∀ e ∈ entries, Text.lower e.1 = key → e = (key, v))
    (hlower : Text.lower key = key) (hv : v.isTable = false)
    (hset : target.valueOf? key = some v ∨ (key, v) ∈ entries) :
    (entries.foldl overlayEntry target).valueOf? key = some v := by
  induction entries generalizing target with
  | nil => exact hset.resolve_right List.not_mem_nil
  | cons e entries ih =>
      refine ih (fun e he => h e (List.mem_cons_of_mem _ he)) ?_
      by_cases hkey : Text.lower e.1 = key
      · left
        rw [h e List.mem_cons_self hkey, overlayEntry, hlower, valueOf?_put,
          overlay_of_not_isTable hv]
      · rw [overlayEntry, valueOf?_put_of_ne _ (Ne.symm hkey)]
        refine hset.imp_right fun hmem => (List.mem_cons.mp hmem).resolve_left ?_
        rintro rfl
        exact hkey hlower

end Entries

/-! ### Paths -/

/-- The first step of a part of a path is a beginning of it. -/
theorem exists_key_of_stepsOf? {part : List Char} {steps : List Step}
    (h : stepsOf? part = some steps) :
    ∃ name rest, steps = .key name :: rest ∧ name.toList <+: part := by
  unfold stepsOf? at h
  split at h
  · cases h
  · next name positions hsplit =>
    split at h
    · cases h
    · obtain ⟨steps, -, rfl⟩ := Option.map_eq_some_iff.mp h
      refine ⟨_, _, rfl, ?_⟩
      rw [String.toList_ofList]
      exact prefix_of_splitOn hsplit

theorem exists_key_of_pathOf (key : String) :
    ∃ name rest, pathOf key = .key name :: rest ∧ name.toList <+: key.toList := by
  unfold pathOf
  cases hparts : key.toList.splitOn '.' with
  | nil => exact absurd hparts (List.splitOn_ne_nil _ _)
  | cons part parts =>
      cases hsteps : (part :: parts).mapM stepsOf? with
      | none => exact ⟨key, [], rfl, List.prefix_rfl⟩
      | some steps =>
          rw [List.mapM_cons] at hsteps
          obtain ⟨first, hfirst, hsteps⟩ := Option.bind_eq_some_iff.mp hsteps
          obtain ⟨others, -, hsteps⟩ := Option.bind_eq_some_iff.mp hsteps
          cases hsteps
          obtain ⟨name, rest, rfl, hname⟩ := exists_key_of_stepsOf? hfirst
          exact ⟨name, rest ++ others.flatten, rfl, hname.trans (prefix_of_splitOn hparts)⟩

theorem stepsOf?_name {name : String} (h : isName name) :
    stepsOf? name.toList = some [.key name] := by
  have hsplit : name.toList.splitOn '[' = [name.toList] :=
    List.splitOn_eq_singleton (not_mem_of_isName h (by decide) (by decide))
  have hchars : name.toList.all isPathChar = true := by
    rw [List.all_eq_true]
    intro c hc
    unfold isPathChar Char.isAlphanum Char.isAlpha
    rcases char_of_isName h hc with hlower | rfl
    · simp [hlower]
    · rfl
  unfold stepsOf?
  rw [hsplit]
  simp [ne_nil_of_isName h, hchars]

theorem pathOf_name {name : String} (h : isName name) : pathOf name = [.key name] := by
  have hsplit : name.toList.splitOn '.' = [name.toList] :=
    List.splitOn_eq_singleton (not_mem_of_isName h (by decide) (by decide))
  unfold pathOf
  rw [hsplit, List.mapM_cons, stepsOf?_name h]
  rfl

theorem pathOf_names {name key : String} (hname : isName name) (hkey : isName key) :
    pathOf (name ++ "." ++ key) = [.key name, .key key] := by
  have hfirst : '.' ∉ name.toList := not_mem_of_isName hname (by decide) (by decide)
  have hlast : key.toList.splitOn '.' = [key.toList] :=
    List.splitOn_eq_singleton (not_mem_of_isName hkey (by decide) (by decide))
  have hsplit : (name ++ "." ++ key).toList.splitOn '.' = [name.toList, key.toList] := by
    have hchars : (name ++ "." ++ key).toList = name.toList ++ '.' :: key.toList := by simp
    rw [hchars, List.splitOn_append_cons_self_of_not_mem hfirst, hlast]
  unfold pathOf
  rw [hsplit, List.mapM_cons, List.mapM_cons, stepsOf?_name hname, stepsOf?_name hkey]
  rfl

theorem overlayAt_key (value : Setting) (name : String) (rest : List Step) (s : Setting) :
    ∃ new, overlayAt value (.key name :: rest) s = s.put (Text.lower name) new := by
  cases rest <;> exact ⟨_, rfl⟩

/-! ### Entries of a source -/

variable {s v : Setting} {name key : String}

theorem overlaySource_table (hname : isName name) (entries : List (String × Setting)) :
    overlaySource s [(name, table entries)] =
      s.put name (entries.foldl overlayEntry ((s.valueOf? name).getD (table []))) := by
  show overlayAt (table entries) (pathOf name) s = _
  rw [pathOf_name hname, overlayAt, lower_of_isName hname, overlay_table]

theorem overlaySource_path (hname : isName name) (hkey : isName key) (hv : v.isTable = false) :
    overlaySource s [(name ++ "." ++ key, v)] =
      s.put name (((s.valueOf? name).getD nothing).put key v) := by
  show overlayAt v (pathOf (name ++ "." ++ key)) s = _
  rw [pathOf_names hname hkey, overlayAt, overlayAt, lower_of_isName hname, lower_of_isName hkey,
    overlay_of_not_isTable hv]
  simp

/-- What is seen of a section that may not be there is seen of nothing, too. -/
theorem valueOf?_getD {t : Setting} (ht : t.entries = []) (existing? : Option Setting)
    (key : String) :
    (existing?.getD t).valueOf? key = existing?.bind (·.valueOf? key) := by
  cases existing? with
  | some t => rfl
  | none =>
      unfold valueOf?
      rw [Option.getD_none, ht]
      rfl

theorem tableAt_put {t : Setting} (ht : t.isTable = true) : (s.put name t).TableAt name := by
  intro t' ht'
  rw [valueOf?_put] at ht'
  cases ht'
  exact ht

theorem inSection?_put (t : Setting) : (s.put name t).inSection? name key = t.valueOf? key := by
  unfold inSection?
  rw [valueOf?_put, Option.bind_some]

end Setting

/-- Sources that are laid over what is there, entry by entry, are merged as documented. -/
theorem SettingsLibrary.plain_merges : SettingsLibrary.plain.Merges where
  nil := fun _ => rfl
  cons := fun _ _ _ => rfl
  isTable := by
    intro s e _
    obtain ⟨name, rest, hpath, -⟩ := Setting.exists_key_of_pathOf e.1
    show (Setting.overlayAt e.2 (Setting.pathOf e.1) s).isTable = true
    obtain ⟨new, hnew⟩ := Setting.overlayAt_key e.2 name rest s
    rw [hpath, hnew]
    rfl
  other := by
    intro s e name hother
    obtain ⟨first, rest, hpath, hfirst⟩ := Setting.exists_key_of_pathOf e.1
    obtain ⟨new, hnew⟩ := Setting.overlayAt_key e.2 first rest s
    show (Setting.overlayAt e.2 (Setting.pathOf e.1) s).valueOf? name = _
    rw [hpath, hnew, Setting.valueOf?_put_of_ne]
    rintro rfl
    rw [Text.toList_lower, Text.toList_lower] at hother
    exact hother (hfirst.map Char.toLower)
  table_tableAt := by
    intro s name entries hname htable
    show (Setting.overlaySource s _).TableAt name
    rw [Setting.overlaySource_table hname]
    refine Setting.tableAt_put (Setting.isTable_foldl_overlayEntry ?_)
    cases hsection : s.valueOf? name with
    | none => rfl
    | some t => exact htable t hsection
  table_sets := by
    intro s name entries key v hname hkey _ hlookup honly hv
    show (Setting.overlaySource s _).inSection? name key = _
    rw [Setting.overlaySource_table hname, Setting.inSection?_put]
    exact Setting.valueOf?_foldl_overlayEntry honly (lower_of_isName hkey) hv
      (.inr (Setting.mem_of_lookup hlookup))
  table_keeps := by
    intro s name entries key hname _ hkeys
    show (Setting.overlaySource s _).inSection? name key = _
    rw [Setting.overlaySource_table hname, Setting.inSection?_put,
      Setting.valueOf?_foldl_overlayEntry_of_ne hkeys, Setting.valueOf?_getD rfl]
    rfl
  path_tableAt := by
    intro s name key v hname hkey _ hv
    show (Setting.overlaySource s _).TableAt name
    rw [Setting.overlaySource_path hname hkey hv]
    exact Setting.tableAt_put rfl
  path_sets := by
    intro s name key v hname hkey _ hv
    show (Setting.overlaySource s _).inSection? name key = _
    rw [Setting.overlaySource_path hname hkey hv, Setting.inSection?_put, Setting.valueOf?_put]
  path_keeps := by
    intro s name key v other hname hkey _ hv hother
    show (Setting.overlaySource s _).inSection? name other = _
    rw [Setting.overlaySource_path hname hkey hv, Setting.inSection?_put,
      Setting.valueOf?_put_of_ne _ hother, Setting.valueOf?_getD rfl]
    rfl

end ExpressModel
