import ExpressModel.Proofs.Config.Loading
import ExpressModel.Proofs.Toml.Tables

/-! # Writing and reading configurations

A configuration is written as plain tables (`isPlain_tables`), so that it is written exactly if its
capacity is not too large (`exists_write_iff`).  The written text alone is a layer that sets every
setting to its value in the configuration (`ofFields_latest`), so that loading it gives the
configuration again (`load_toToml`). -/

namespace ExpressModel

open Config (Field)

namespace Config

variable (c : Config)

/-! ### Writing -/

theorem isName_setting (policy : IndexPolicy) : isName policy.setting := by
  cases policy <;> rfl

theorem forall_tables_iff {P : String × List (String × Scalar) → Prop} :
    (∀ t ∈ c.tables, P t) ↔
      P ("registry", [("initial_capacity", .integer c.registry.initialCapacity),
        ("index_policy", .text c.registry.indexPolicy.setting)]) ∧
      P ("generation", [("header_comment", .boolean c.generation.headerComment)]) := by
  simp [tables]

theorem forall_entries_iff {P : String × Scalar → Prop} :
    (∀ t ∈ c.tables, ∀ e ∈ t.2, P e) ↔
      P ("initial_capacity", .integer c.registry.initialCapacity) ∧
      P ("index_policy", .text c.registry.indexPolicy.setting) ∧
      P ("header_comment", .boolean c.generation.headerComment) := by
  rw [forall_tables_iff]
  simp [and_assoc]

theorem isPlain_tables : c.tables.IsPlain where
  names := by
    rw [forall_tables_iff]
    exact ⟨Field.isName_sectionName .initialCapacity, Field.isName_sectionName .headerComment⟩
  nodup := by
    show ["registry", "generation"].Nodup
    decide
  keys := by
    rw [forall_entries_iff]
    exact ⟨Field.isName_key .initialCapacity, Field.isName_key .indexPolicy,
      Field.isName_key .headerComment⟩
  keys_nodup := by
    rw [forall_tables_iff]
    constructor
    · show ["initial_capacity", "index_policy"].Nodup
      decide
    · exact List.nodup_singleton _
  texts := by
    rw [forall_entries_iff]
    refine ⟨nofun, ?_, nofun⟩
    intro s hs
    cases hs
    exact isName_setting _

theorem exists_write_iff {library : SettingsLibrary} (h : library.Writes) :
    (∃ text, library.write c.tables = .ok text) ↔ c.registry.initialCapacity < 2 ^ 63 := by
  rw [h.ok_iff _ c.isPlain_tables, forall_entries_iff]
  constructor
  · rintro ⟨hcapacity, -, -⟩
    exact hcapacity _ rfl
  · intro hcapacity
    refine ⟨?_, nofun, nofun⟩
    intro n hn
    cases hn
    exact hcapacity

theorem toToml_eq_ok_iff {library : SettingsLibrary} {text : String} :
    library.toToml c = .ok text ↔ library.write c.tables = .ok text := by
  unfold SettingsLibrary.toToml
  cases library.write c.tables <;> simp [Except.mapError]

theorem toToml_eq_error_iff {library : SettingsLibrary} :
    (∃ fault, library.toToml c = .error (.config fault)) ↔
      ¬ ∃ text, library.write c.tables = .ok text := by
  unfold SettingsLibrary.toToml
  cases library.write c.tables <;> simp [Except.mapError]

/-! ### Reading -/

theorem ofSetting?_natCast {n : Nat} (h : n < 2 ^ 64) :
    Field.initialCapacity.ofSetting? (.integer n) = some n := by
  have hn : 0 ≤ (n : Int) ∧ (n : Int) < 2 ^ 64 := by omega
  rw [Field.ofSetting?, if_pos hn, Int.toNat_natCast]
  rfl

theorem ofSetting?_setting (policy : IndexPolicy) :
    Field.indexPolicy.ofSetting? (.text policy.setting) = some policy := by
  cases policy <;> rfl

/-- The layer of the tables of a configuration alone. -/
def writtenLayers : Layers :=
  { requestedFile? := some c.tables.layer }

theorem fit_writtenLayers (h : c.registry.initialCapacity < 2 ^ 64) : c.writtenLayers.Fit := by
  have hregistry : Field.Fits ("registry",
      .table [("initial_capacity", .integer c.registry.initialCapacity),
        ("index_policy", .text c.registry.indexPolicy.setting)]) := by
    refine Field.fits_table .initialCapacity ?_ (by simp) ?_
    · rw [List.forall_mem_cons, List.forall_mem_singleton]
      exact ⟨Field.lower_key .initialCapacity, Field.lower_key .indexPolicy⟩
    rintro (_ | _ | _) v hv
    · cases hv
      rw [ofSetting?_natCast h]
      rfl
    · cases hv
      rw [ofSetting?_setting]
      rfl
    · cases hv
  have hgeneration : Field.Fits ("generation",
      .table [("header_comment", .boolean c.generation.headerComment)]) := by
    refine Field.fits_table .headerComment ?_ (by simp) ?_
    · rw [List.forall_mem_singleton]
      exact Field.lower_key .headerComment
    rintro (_ | _ | _) v hv
    · cases hv
    · cases hv
    · cases hv
      rfl
  intro layer hlayer e he
  rcases List.mem_cons.mp hlayer with rfl | hvariables
  · rcases List.mem_cons.mp he with rfl | hrest
    · exact hregistry
    · cases List.mem_singleton.mp hrest
      exact hgeneration
  · cases List.mem_singleton.mp hvariables
    cases he

theorem latest_writtenLayers {f : Field} {v : Setting} {value : f.Value}
    (hentry : c.tables.layer.filterMap f.setBy? = [v]) (hvalue : f.ofSetting? v = some value) :
    c.writtenLayers.latest f = value := by
  have hlist : c.writtenLayers.list = [c.tables.layer, []] := rfl
  have hlayer : f.value? c.tables.layer = some value := by
    unfold Field.value?
    rw [hentry]
    exact hvalue
  unfold Layers.latest
  rw [hlist, List.filterMap_cons, hlayer]
  rfl

theorem ofFields_latest (h : c.registry.initialCapacity < 2 ^ 64) :
    Config.ofFields c.writtenLayers.latest = c := by
  have hcapacity : c.writtenLayers.latest .initialCapacity = c.registry.initialCapacity :=
    c.latest_writtenLayers rfl (ofSetting?_natCast h)
  have hpolicy : c.writtenLayers.latest .indexPolicy = c.registry.indexPolicy :=
    c.latest_writtenLayers rfl (ofSetting?_setting _)
  have hheader : c.writtenLayers.latest .headerComment = c.generation.headerComment :=
    c.latest_writtenLayers rfl rfl
  unfold Config.ofFields
  rw [hcapacity, hpolicy, hheader]

end Config

/-- A machine where a name stands for a file with a text, with no other layers. -/
structure SettingsLibrary.FoundAlone (library : SettingsLibrary) (w : Surroundings)
    (name text : String) : Prop where
  requestedFile : ∃ path, library.found? w name = some (path, text) ∧ IsTomlPath path
  localFiles : ∀ name ∈ Config.localFiles, library.found? w name = none
  userFile : ∀ path, w.userPath? = some path → w.file? path = none
  environment : ∀ v ∈ w.environment, library.setByVariable? "EXPRESS_DICT" "__" true v = none

/-- With any library that does what libraries of settings are documented to do, a configuration
cannot be written exactly if its capacity is no number of 64 bits with a sign.  Any other is what
loading the written text alone gives. -/
theorem Config.load_toToml {library : SettingsLibrary} (hcollects : library.Collects)
    (hmerges : library.Merges) (hreads : library.Reads) (hwrites : library.Writes) (c : Config) :
    ((∃ fault, library.toToml c = .error (.config fault)) ↔
        2 ^ 63 - 1 < c.registry.initialCapacity) ∧
      (c.registry.initialCapacity ≤ 2 ^ 63 - 1 → ∃ text, library.toToml c = .ok text ∧
        ∀ w name, library.FoundAlone w name text → library.load w (some name) = .ok c) := by
  constructor
  · rw [c.toToml_eq_error_iff, c.exists_write_iff hwrites]
    omega
  · intro hcapacity
    obtain ⟨text, htext⟩ := (c.exists_write_iff hwrites).mpr (by omega)
    refine ⟨text, c.toToml_eq_ok_iff.mpr htext, ?_⟩
    intro w name halone
    obtain ⟨path, hpath, htoml⟩ := halone.requestedFile
    have hlayer := hwrites.parse _ _ path c.isPlain_tables htext htoml
    have hfound : library.Found w (some name) c.writtenLayers :=
      { localFile := halone.localFiles _ List.mem_cons_self
        hiddenFile := halone.localFiles _ (List.mem_cons_of_mem _ List.mem_cons_self)
        userFile := halone.userFile
        requestedFile := ⟨name, rfl, path, text, hpath, hlayer⟩
        environment := (List.filterMap_eq_nil_iff.mpr halone.environment).symm }
    rw [SettingsLibrary.load_found hcollects hmerges hreads hfound
      (c.fit_writtenLayers (by omega)), c.ofFields_latest (by omega)]

/-- The largest capacity that can be written, and the next one, which cannot. -/
theorem Config.load_toToml_largest :
    let library := SettingsLibrary.plain
    let c : Config := ⟨{ initialCapacity := 2 ^ 63 - 1, indexPolicy := .extend },
      { headerComment := false }⟩
    let larger : Config := { c with registry := { c.registry with initialCapacity := 2 ^ 63 } }
    let text := "[registry]\ninitial_capacity = 9223372036854775807\n" ++
      "index_policy = \"extend\"\n\n[generation]\nheader_comment = false\n"
    let w : Surroundings := { file? path := [("written.toml", text)].lookup path }
    library.toToml c = .ok text ∧ library.FoundAlone w "written" text ∧
      library.load w (some "written") = .ok c ∧
      ∃ fault, library.toToml larger = .error (.config fault) := by
  intro library c larger text w
  have htheorem := load_toToml SettingsLibrary.plain_collects SettingsLibrary.plain_merges
    SettingsLibrary.plain_reads SettingsLibrary.plain_writes
  have htext : library.toToml c = .ok text := by
    decide +kernel
  have halone : library.FoundAlone w "written" text :=
    { requestedFile := ⟨"written.toml", rfl, "writte".toList, 'n', rfl, rfl⟩
      localFiles := by
        intro name hname
        fin_cases hname <;> rfl
      userFile := nofun
      environment := nofun }
  obtain ⟨written, hwritten, hload⟩ := (htheorem c).2 (Nat.le_refl _)
  cases htext.symm.trans hwritten
  exact ⟨htext, halone, hload w "written" halone, (htheorem larger).1.mpr (by decide)⟩

end ExpressModel
