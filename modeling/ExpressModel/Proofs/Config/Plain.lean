import ExpressModel.Proofs.Config.Overlay
import ExpressModel.Proofs.Declaration.Traversal

/-! # The plain library

The library for files of one format does what libraries of settings are documented to do: it
collects sources in order (`plain_collects`) and reads values as what they are (`plain_reads`).  A
variable is named by the levels of its key since no level holds two underscores in a row
(`pointed_names`). -/

namespace ExpressModel

/-! ### Names of variables -/

theorem pointed_word {word : List Char} (h : '_' ∉ word) (cs : List Char) :
    pointed ['_', '_'] 0 (word ++ cs) = word ++ pointed ['_', '_'] 0 cs := by
  induction word with
  | nil => rfl
  | cons c word ih =>
      have hc : ¬ '_' = c := fun heq => h (heq ▸ List.mem_cons_self)
      rw [List.cons_append, pointed, if_neg (by simp [hc]),
        ih fun hmem => h (List.mem_cons_of_mem _ hmem)]
      rfl

theorem pointed_underscore {c : Char} (h : c ≠ '_') (cs : List Char) :
    pointed ['_', '_'] 0 ('_' :: c :: cs) = '_' :: pointed ['_', '_'] 0 (c :: cs) := by
  rw [pointed, if_neg (by simp [h.symm])]

/-- Words with single underscores between them are left as they are. -/
theorem pointed_words {words : List (List Char)}
    (h : ∀ word ∈ words, word ≠ [] ∧ '_' ∉ word) (cs : List Char) :
    pointed ['_', '_'] 0 (['_'].intercalate words ++ cs) =
      ['_'].intercalate words ++ pointed ['_', '_'] 0 cs := by
  induction words with
  | nil => rfl
  | cons word words ih =>
      obtain ⟨-, hword⟩ := h word List.mem_cons_self
      have hrest := ih fun word hmem => h word (List.mem_cons_of_mem _ hmem)
      cases words with
      | nil => rw [List.intercalate_singleton, pointed_word hword]
      | cons next words =>
          obtain ⟨hne, hnext⟩ := h next (List.mem_cons_of_mem _ List.mem_cons_self)
          obtain ⟨c, more, hopens, hc⟩ : ∃ c more,
              ['_'].intercalate (next :: words) ++ cs = c :: more ∧ c ≠ '_' := by
            obtain ⟨c, next', rfl⟩ := List.exists_cons_of_ne_nil hne
            have hc : c ≠ '_' := fun heq => hnext (heq ▸ List.mem_cons_self)
            cases words with
            | nil => exact ⟨c, next' ++ cs, by simp, hc⟩
            | cons _ _ => exact ⟨c, _, by rw [List.intercalate_cons_cons]; rfl, hc⟩
          rw [List.intercalate_cons_cons, List.append_assoc, List.append_assoc, pointed_word hword,
            List.singleton_append, hopens, pointed_underscore hc, ← hopens, hrest]
          simp

theorem pointed_name {name : String} (h : isName name) (cs : List Char) :
    pointed ['_', '_'] 0 (name.toList ++ cs) = name.toList ++ pointed ['_', '_'] 0 cs := by
  have hwords : ['_'].intercalate (name.toList.splitOn '_') = name.toList :=
    List.intercalate_splitOn '_'
  rw [← hwords]
  refine pointed_words ?_ cs
  intro word hword
  obtain ⟨hne, hlower⟩ := isName_iff.mp h word hword
  exact ⟨hne, fun hmem => absurd (hlower '_' hmem) (by decide)⟩

theorem pointed_names {name key : String} (hname : isName name) (hkey : isName key) :
    pointed ['_', '_'] 0 (name.toList ++ '_' :: '_' :: key.toList) =
      name.toList ++ '.' :: key.toList := by
  have hlast := pointed_name hkey []
  rw [List.append_nil] at hlast
  rw [pointed_name hname]
  show _ ++ '.' :: pointed ['_', '_'] 0 key.toList = _
  rw [hlast]
  simp [pointed]

theorem variableKey?_names {start name key v : String} (hname : isName name) (hkey : isName key)
    (hv : Text.lower v = Text.lower start ++ "__" ++ name ++ "__" ++ key) :
    variableKey? start "__" v = some (name ++ "." ++ key) := by
  have hstart : (Text.lower (start ++ "__")).toList = (Text.lower start).toList ++ ['_', '_'] := by
    rw [Text.toList_lower, Text.toList_lower, String.toList_append, List.map_append]
    rfl
  have hchars : (Text.lower v).toList = (Text.lower start).toList ++ ['_', '_'] ++
      (name.toList ++ '_' :: '_' :: key.toList) := by
    rw [hv]
    simp
  have hprefix : ((Text.lower start).toList ++ ['_', '_']).isPrefixOf ((Text.lower start).toList ++
      ['_', '_'] ++ (name.toList ++ '_' :: '_' :: key.toList)) = true :=
    List.isPrefixOf_iff_prefix.mpr (List.prefix_append _ _)
  unfold variableKey?
  simp only [hstart, hchars, hprefix, if_true, List.drop_left]
  rw [show "__".toList = ['_', '_'] from rfl, pointed_names hname hkey]
  refine congrArg some ?_
  rw [← String.toList_inj]
  simp

/-! ### The library -/

namespace SettingsLibrary

theorem layer_file (w : Surroundings) (name : String) (required : Bool) :
    w.layer (.file name required) =
      (plain.found? w name).elim (if required then .error .missingFile else .ok [])
        fun found => fileLayer found.1 found.2 := by
  have hfound : (filePaths name).findSome? (fun path => (w.file? path).map (path, ·)) =
      plain.found? w name := rfl
  unfold Surroundings.layer
  dsimp only
  rw [hfound]
  cases plain.found? w name <;> rfl

theorem plain_collects : plain.Collects where
  exact := fun _ => rfl
  present := by
    intro w name required path text layer hfound hlayer
    show w.layer (.file name required) = _
    rw [layer_file, hfound]
    exact hlayer
  absent := by
    intro w name hfound
    show w.layer (.file name false) = _
    rw [layer_file, hfound]
    rfl
  missing := by
    intro w name hfound
    refine ⟨.missingFile, ?_⟩
    show w.layer (.file name true) = _
    rw [layer_file, hfound]
    rfl
  environment := fun _ _ _ _ => rfl
  named := by
    intro start name key v value hname hkey hv
    show (variableKey? start "__" v).map _ = _
    rw [variableKey?_names hname hkey hv]
    rfl
  build := by
    intro w sources layers hlayers
    show (sources.mapM w.layer).map _ = _
    have hlayers : sources.mapM w.layer = .ok layers := hlayers
    rw [hlayers]
    rfl
  failed := by
    intro w sources source fault hsource hfault
    show ∃ fault, (sources.mapM w.layer).map _ = .error fault
    cases hlayers : sources.mapM w.layer with
    | error fault => exact ⟨fault, rfl⟩
    | ok layers =>
        obtain ⟨layer, hlayer⟩ :=
          Traversal.exists_mapM_eq_ok_iff.mp ⟨layers, hlayers⟩ source hsource
        have hfault : w.layer source = .error fault := hfault
        rw [hlayer] at hfault
        cases hfault

theorem plain_reads : plain.Reads where
  field := fun _ _ _ => rfl
  natural := by
    intro n _
    show (if (n : Int) < 0 then none else some (n : Int).toNat) = _
    rw [if_neg (by omega), Int.toNat_natCast]
  boolean := fun _ => rfl
  choice := by
    intro names name hnames hmem
    show names.find? (· = Text.lower name) = _
    rw [lower_of_isName (hnames name hmem)]
    cases hfind : names.find? (· = name) with
    | none => exact absurd (List.find?_eq_none.mp hfind name hmem) (by simp)
    | some found =>
        have hname := List.find?_some hfind
        simp only [decide_eq_true_eq] at hname
        rw [hname]

end SettingsLibrary

end ExpressModel
