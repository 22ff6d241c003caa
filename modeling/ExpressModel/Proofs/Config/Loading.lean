import ExpressModel.Proofs.Config.Layers
import ExpressModel.Proofs.Config.Plain

/-! # Loading configurations

A configuration is loaded from the layers that are there: two files of the working directory, the
user's file, the file that is asked for, and the variables (`SettingsLibrary.Found`).  Whatever does
what libraries of settings are documented to do collects these layers in this order
(`mapM_collect`), so that every setting has the value of the last layer that sets it, or else its
default (`load_layers`).  Where the file that is asked for is not there, there is no
configuration. -/

namespace ExpressModel

open Config (Field)

/-! ### Layers -/

/-- The layers of a configuration; a file that is not there has none. -/
structure Config.Layers where
  localFile? : Option Layer := none
  hiddenFile? : Option Layer := none
  userFile? : Option Layer := none
  requestedFile? : Option Layer := none
  environment : Layer := []

namespace Config.Layers

/-- The layers that are there, in the order in which they count. -/
def list (l : Layers) : List Layer :=
  [l.localFile?, l.hiddenFile?, l.userFile?, l.requestedFile?].reduceOption ++ [l.environment]

/-- Every layer sets settings to values of their kinds. -/
def Fit (l : Layers) : Prop :=
  ∀ layer ∈ l.list, ∀ e ∈ layer, Field.Fits e

/-- The value of a setting: that of the last layer that sets it, or its default. -/
def latest (l : Layers) (f : Field) : f.Value :=
  (l.list.filterMap f.value?).getLast?.getD f.default

end Config.Layers

namespace SettingsLibrary

variable (library : SettingsLibrary) (w : Surroundings)

/-- A name stands for a file with a layer, or for none. -/
def Holds (name : String) : Option Layer → Prop
  | some layer => ∃ path text, library.found? w name = some (path, text) ∧
      library.parse path text = .ok layer
  | none => library.found? w name = none

/-- The user has a file with a layer, or none. -/
def HoldsUser : Option Layer → Prop
  | some layer => ∃ path text, w.userPath? = some path ∧ w.file? path = some text ∧
      library.parse path text = .ok layer
  | none => ∀ path, w.userPath? = some path → w.file? path = none

/-- The file that is asked for has a layer, or none is asked for. -/
def HoldsRequested (requested? : Option String) : Option Layer → Prop
  | some layer => ∃ name, requested? = some name ∧ library.Holds w name (some layer)
  | none => requested? = none

/-- The layers are those that the files and the variables hold. -/
structure Found (requested? : Option String) (l : Config.Layers) : Prop where
  localFile : library.Holds w "express_dictionary.toml" l.localFile?
  hiddenFile : library.Holds w ".express_dictionary.toml" l.hiddenFile?
  userFile : library.HoldsUser w l.userFile?
  requestedFile : library.HoldsRequested w requested? l.requestedFile?
  environment :
    l.environment = w.environment.filterMap (library.setByVariable? "EXPRESS_DICT" "__" true)

variable {library w} {requested? : Option String} {l : Config.Layers} {layer? : Option Layer}

/-! ### Collecting -/

theorem collect_optional (h : library.Collects) {name : String}
    (hname : library.Holds w name layer?) :
    library.collect w (.file name false) = .ok (layer?.getD []) := by
  cases layer? with
  | none => exact h.absent w name hname
  | some layer =>
      obtain ⟨path, text, hfound, hlayer⟩ := hname
      exact h.present w name false path text layer hfound hlayer

theorem found?_path (h : library.Collects) {path text : String} (hfile : w.file? path = some text) :
    library.found? w path = some (path, text) := by
  obtain ⟨others, hothers⟩ : ∃ others, library.candidates path = path :: others := by
    have hexact := h.exact path
    cases hcandidates : library.candidates path with
    | nil => rw [hcandidates] at hexact; cases hexact
    | cons first others =>
        rw [hcandidates] at hexact
        cases hexact
        exact ⟨others, rfl⟩
  unfold found?
  rw [hothers, List.findSome?_cons, hfile]
  rfl

theorem collect_user (h : library.Collects) (huser : library.HoldsUser w layer?) :
    List.Forall₂ (fun source layer => library.collect w source = .ok layer)
      (w.userFile?.toList.map (.file · false)) layer?.toList := by
  unfold Surroundings.userFile?
  cases layer? with
  | none =>
      have hnone : (w.userPath?.filter fun path => (w.file? path).isSome) = none := by
        rw [Option.filter_eq_none_iff]
        intro path hpath
        rw [huser path hpath]
        exact Bool.false_ne_true
      rw [hnone]
      exact .nil
  | some layer =>
      obtain ⟨path, text, hpath, hfile, hlayer⟩ := huser
      have hsome : (w.userPath?.filter fun path => (w.file? path).isSome) = some path := by
        rw [hpath, Option.filter_some, if_pos (by rw [hfile]; rfl)]
      rw [hsome]
      exact .cons (h.present w path false path text layer (found?_path h hfile) hlayer) .nil

theorem collect_requested (h : library.Collects)
    (hrequested : library.HoldsRequested w requested? layer?) :
    List.Forall₂ (fun source layer => library.collect w source = .ok layer)
      (requested?.toList.map (.file · true)) layer?.toList := by
  cases layer? with
  | none =>
      obtain rfl : requested? = none := hrequested
      exact .nil
  | some layer =>
      obtain ⟨name, rfl, path, text, hfound, hlayer⟩ := hrequested
      exact .cons (h.present w name true path text layer hfound hlayer) .nil

/-- The layers of all sources, with nothing for the files of the working directory that are not
there. -/
def collected (l : Config.Layers) : List Layer :=
  [l.localFile?.getD [], l.hiddenFile?.getD []] ++ l.userFile?.toList ++
    l.requestedFile?.toList ++ [l.environment]

theorem mapM_collect (h : library.Collects) (hfound : library.Found w requested? l) :
    (w.sources requested?).mapM (library.collect w) = .ok (collected l) := by
  have hlocal : List.Forall₂ (fun source layer => library.collect w source = .ok layer)
      (Config.localFiles.map (.file · false)) [l.localFile?.getD [], l.hiddenFile?.getD []] :=
    .cons (collect_optional h hfound.localFile) (.cons (collect_optional h hfound.hiddenFile) .nil)
  have hvariables : List.Forall₂ (fun source layer => library.collect w source = .ok layer)
      [Source.environment "EXPRESS_DICT" "__" true] [l.environment] := by
    refine .cons ?_ .nil
    rw [hfound.environment]
    exact h.environment w "EXPRESS_DICT" "__" true
  rw [Traversal.mapM_eq_ok_iff]
  exact List.rel_append (List.rel_append (List.rel_append hlocal (collect_user h hfound.userFile))
    (collect_requested h hfound.requestedFile)) hvariables

theorem foldl_collected (h : library.Merges) (l : Config.Layers) (s : Setting) :
    (collected l).foldl library.merge s = l.list.foldl library.merge s := by
  unfold collected Config.Layers.list
  rcases l with ⟨_ | _, _ | _, _ | _, _ | _, _⟩ <;>
    simp [List.reduceOption, h.nil]

/-! ### Loading -/

theorem load_found (hcollects : library.Collects) (hmerges : library.Merges)
    (hreads : library.Reads) (hfound : library.Found w requested? l) (hfit : l.Fit) :
    library.load w requested? = .ok (.ofFields l.latest) := by
  have hsettings : library.build w (w.sources requested?) =
      .ok (l.list.foldl library.merge (.table [])) := by
    rw [hcollects.build w _ _ (mapM_collect hcollects hfound), foldl_collected hmerges]
  have hlatest := fun f => foldl_merge hmerges hfit Setting.sectioned_empty f
  have hat : ∀ f : Field, f.at? (l.list.foldl library.merge (.table [])) =
      (l.list.flatMap (·.filterMap f.setBy?)).getLast? :=
    fun f => (hlatest f).2.trans (Option.or_none ..)
  have hread : ∀ f : Field, ∀ v, f.at? (l.list.foldl library.merge (.table [])) = some v →
      (f.ofSetting? v).isSome = true := by
    intro f v hv
    rw [hat] at hv
    obtain ⟨layer, hlayer, hmem⟩ := List.mem_flatMap.mp (List.mem_of_getLast? hv)
    obtain ⟨e, he, hentry⟩ := List.mem_filterMap.mp hmem
    exact Field.isSome_ofSetting? (hfit layer hlayer e he) hentry
  unfold load
  rw [hsettings]
  refine (read_eq hreads (hlatest .initialCapacity).1 hread).trans ?_
  simp only [hat, getLast?_flatMap_setBy? hfit]
  rfl

end SettingsLibrary

end ExpressModel
