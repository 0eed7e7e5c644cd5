/-
The files that compilation leaves in a directory.

* `Descriptor.manifestName` — the file of a type, named after its class;
* `isFileName_manifestName`, `nodup_manifestNames` — which is a name, and of no other type;
* `run_writeFiles` — writing puts one file after the other where the directory is;
* `run_compile`, `run_deliver` — what the command does with a schema, and with manifests;
* `Written` — what of a disk changes with the manifests of types, and what does not;
* `compile_writes_one_file_per_type` — so it leaves one file for every type, and nothing else.

Design notes: whether all files can be written is known before the first of them is, since a write
touches no directory.  Where the schema or the directory is refused, no write is reached.
-/
import ClassSchema.Proofs.Acceptance
import ClassSchema.Proofs.CommandLine.Disk
import ClassSchema.Proofs.DeclarationOrder
import ClassSchema.Proofs.PascalCase

namespace ClassSchema

/-! ### Names of files -/

namespace Descriptor

/-- The name of the file of a manifest. -/
def manifestName (d : Descriptor) : String := d.className ++ ".json"

theorem slash_notMem_className (x : Ident) : '/' ∉ x.className.toList := by
  intro hslash
  exact absurd (x.inPascalCase_className.isAlphanum hslash) (by decide)

theorem isFileName_manifestName (d : Descriptor) : CommandLine.IsFileName d.manifestName := by
  have hlength : 5 ≤ d.manifestName.toList.length := by
    rw [manifestName, String.toList_append, List.length_append]
    exact Nat.le_add_left _ _
  refine ⟨?_, ?_, ?_, ?_⟩
  · rw [manifestName, String.toList_append, List.mem_append]
    rintro (h | h)
    · exact slash_notMem_className d.name h
    · exact absurd h (by decide)
  all_goals
    intro h
    rw [h] at hlength
    exact absurd hlength (by decide)

/-- No two types have one file. -/
theorem nodup_manifestNames {ds : List Descriptor} (h : (ds.map fun d => d.name.text).Nodup) :
    (ds.map manifestName).Nodup := by
  have hnames : (ds.map Descriptor.name).Nodup := by
    rw [show (fun d : Descriptor => d.name.text) = Ident.text ∘ Descriptor.name from rfl,
      ← List.map_map] at h
    exact h.of_map _
  have hinjective : Function.Injective fun x : Ident => x.className ++ ".json" :=
    fun x y hxy => Ident.className_injective (String.append_left_inj _ |>.mp hxy)
  rw [show manifestName = (fun x : Ident => x.className ++ ".json") ∘ Descriptor.name from rfl,
    ← List.map_map]
  exact hnames.map hinjective

end Descriptor

namespace CommandLine

/-- The path of the file of a manifest in a directory. -/
def manifestPath (directory : String) (d : Descriptor) : String :=
  joinPath directory d.manifestName

/-- The manifests of types, each with the name of its class. -/
def namedManifests (docs : Bool) (ds : List Descriptor) : List (String × Json) :=
  ds.map fun d => (d.className, d.manifest docs)

/-- The files of manifests where a directory is, each with its content. -/
def manifestFiles (home : List String) (docs : Bool) (ds : List Descriptor) :
    List (List String × ByteArray) :=
  ds.map fun d => (home ++ [d.manifestName], (d.manifest docs).pretty.toUTF8)

/-! ### Writing one file after the other -/

section Writing

variable {here : List String} {disk : Disk here} {directory : String} {home : List String}

theorem run_write {path content : String} {after : Disk here}
    (h : disk.write? path content = some after) :
    (FileSystem.write path content : StateM (Disk here) Bool).run disk = (true, after) := by
  dsimp only [FileSystem.write]
  rw [StateT.run_bind, StateT.run_get, pure_bind, h]
  rfl

/-- Writing puts one file after the other where the directory is. -/
theorem run_writeFiles (hhome : disk.place? directory = some home) {docs : Bool}
    {ds : List Descriptor} (hall : ∀ d ∈ ds, disk.Writable (manifestPath directory d)) :
    (writeFiles directory (namedManifests docs ds) : StateM (Disk here) _).run disk =
      (.ok (), disk.putFiles (manifestFiles home docs ds)) := by
  induction ds generalizing disk with
  | nil => rfl
  | cons d rest ih =>
    obtain ⟨after, hwrite⟩ :=
      (Disk.writable_iff (d.manifest docs).pretty).mp (hall d List.mem_cons_self)
    obtain ⟨place, hplace, -, hafter⟩ := Disk.write?_eq_some_iff.mp hwrite
    obtain rfl := Disk.place?_joinPath hhome d.isFileName_manifestName hplace
    have hdirectories : after.directories = disk.directories := by rw [hafter]
    have hrest := @ih after (by rw [Disk.place?_congr hdirectories, hhome])
      fun e he => (Disk.writable_congr hdirectories).mpr (hall e (List.mem_cons_of_mem d he))
    rw [namedManifests, List.map_cons, writeFiles, StateT.run_bind,
      show joinPath directory (d.className ++ ".json") = manifestPath directory d from rfl,
      run_write hwrite]
    show (writeFiles directory (namedManifests docs rest) : StateM (Disk here) _).run after = _
    rw [hrest, hafter]
    rfl

/-- A file of a manifest is found where it was put. -/
theorem get?_manifestFiles {ds : List Descriptor} (hnames : (ds.map Descriptor.manifestName).Nodup)
    (docs : Bool) (files : List (List String × ByteArray)) {d : Descriptor} (hd : d ∈ ds) :
    Entries.get? (home ++ [d.manifestName]) (Entries.putAll files (manifestFiles home docs ds)) =
      some (d.manifest docs).pretty.toUTF8 := by
  have hkeys : (Entries.keys (manifestFiles home docs ds)).Nodup := by
    have hinjective : Function.Injective fun name : String => home ++ [name] :=
      fun x y h => List.singleton_inj.mp (List.append_cancel_left h)
    have hmap := hnames.map hinjective
    rw [List.map_map] at hmap
    rw [Entries.keys, manifestFiles, List.map_map]
    exact hmap
  have hlast : Entries.last? (home ++ [d.manifestName]) (manifestFiles home docs ds) =
      some (d.manifest docs).pretty.toUTF8 :=
    (Entries.last?_eq_some_iff hkeys).mpr (List.mem_map_of_mem hd)
  rw [Entries.get?_putAll, hlast, Option.some_or]

/-- Nothing else is changed. -/
theorem get?_of_no_manifest {ds : List Descriptor} (docs : Bool)
    (files : List (List String × ByteArray)) {place : List String}
    (hplace : ∀ d ∈ ds, place ≠ home ++ [d.manifestName]) :
    Entries.get? place (Entries.putAll files (manifestFiles home docs ds)) =
      Entries.get? place files := by
  have hlast : Entries.last? place (manifestFiles home docs ds) = none := by
    rw [Entries.last?, Option.map_eq_none_iff, List.findRev?_eq_find?_reverse, List.find?_eq_none]
    intro e he
    obtain ⟨d, hd, rfl⟩ := List.mem_map.mp (List.mem_reverse.mp he)
    simpa using (hplace d hd).symm
  rw [Entries.get?_putAll, hlast, Option.none_or]

end Writing

/-! ### The command -/

section Command

variable {here : List String} {disk : Disk here} {options : Options} {path : String} {docs : Bool}

theorem run_readSchema (path : String) :
    (readSchema path : StateM (Disk here) _).run disk =
      ((Json.ofSource path (disk.read? path)).mapError (.read path), disk) := rfl

theorem run_compileManifests (path : String) (options : Options) :
    (compileManifests path options : StateM (Disk here) _).run disk =
      (((Json.ofSource path (disk.read? path)).mapError (.read path)).bind
        (manifestsOf path options), disk) := by
  rw [compileManifests, StateT.run_bind, run_readSchema]
  rcases Json.ofSource path (disk.read? path) with e | schema
  · rfl
  · rfl

/-- How types are to be written is not looked at before all of them are compiled. -/
theorem manifestsOf_docs (path : String) (options : Options) (docs : Bool) (schema : Json) :
    manifestsOf path { options with docs := docs } schema =
      match schema.compileSchema options with
      | .ok ds => .ok (namedManifests docs ds)
      | .error e => .error (.compile path e) := rfl

/-- What the command does with the schema that is loaded. -/
theorem run_compile (options : Options) (path : String) (docs : Bool) (directory : Option String) :
    (perform options (.compile path docs directory) : StateM (Disk here) Report).run disk =
      match Json.ofSource path (disk.read? path) with
      | .error e => (.failed (.read path e), disk)
      | .ok schema =>
        match schema.compileSchema options with
        | .error e => (.failed (.compile path e), disk)
        | .ok ds =>
          (deliver directory (namedManifests (options.docs || docs) ds) :
            StateM (Disk here) _).run disk := by
  rw [perform, StateT.run_bind, run_compileManifests]
  rcases Json.ofSource path (disk.read? path) with e | schema
  · rfl
  · dsimp only [Except.mapError, Except.bind]
    rw [manifestsOf_docs]
    rcases schema.compileSchema options with e | ds
    · rfl
    · rfl

/-- Once the types of a schema compile, their manifests are delivered. -/
theorem run_compile_of_ok {schema : Json} {ds : List Descriptor}
    (hschema : Json.ofSource path (disk.read? path) = .ok schema)
    (hds : schema.compileSchema options = .ok ds) (directory : Option String) :
    (perform options (.compile path docs directory) : StateM (Disk here) Report).run disk =
      (deliver directory (namedManifests (options.docs || docs) ds) :
        StateM (Disk here) _).run disk := by
  rw [run_compile, hschema]
  dsimp only
  rw [hds]

/-- Without a directory the manifests are printed as an array. -/
theorem run_deliver_to_output (docs : Bool) (ds : List Descriptor) :
    (deliver none (namedManifests docs ds) : StateM (Disk here) Report).run disk =
      (.success ((Json.arr (ds.map (Descriptor.manifest docs))).pretty ++ "\n"), disk) := by
  show (pure (Report.success ((Json.arr ((namedManifests docs ds).map Prod.snd)).pretty ++ "\n")) :
    StateM (Disk here) Report).run disk = _
  rw [namedManifests, List.map_map]
  rfl

theorem run_writeManifests (directory : String) (manifests : List (String × Json)) :
    (writeManifests directory manifests : StateM (Disk here) _).run disk =
      if disk.isDirectory directory then
        (writeFiles directory manifests : StateM (Disk here) _).run disk
      else (.error (.noDirectory directory), disk) := by
  show (if disk.isDirectory directory then writeFiles directory manifests
    else pure (.error (.noDirectory directory)) : StateM (Disk here) _).run disk = _
  rcases disk.isDirectory directory with _ | _
  · rfl
  · rfl

/-- Where the directory is missing, nothing is written. -/
theorem run_deliver_of_missing {directory : String} (h : disk.isDirectory directory = false)
    (manifests : List (String × Json)) :
    (deliver (some directory) manifests : StateM (Disk here) Report).run disk =
      (.failed (.noDirectory directory), disk) := by
  rw [deliver, StateT.run_bind, run_writeManifests, h]
  rfl

theorem run_deliver {directory : String} {home : List String}
    (hhome : disk.place? directory = some home) (hdirectory : disk.isDirectory directory = true)
    {ds : List Descriptor} (hall : ∀ d ∈ ds, disk.Writable (manifestPath directory d)) :
    (deliver (some directory) (namedManifests docs ds) : StateM (Disk here) Report).run disk =
      (.success ("Wrote " ++ toString ds.length ++ " manifests to " ++ directory ++ "\n"),
        disk.putFiles (manifestFiles home docs ds)) := by
  have hcount : (namedManifests docs ds).length = ds.length := List.length_map _
  rw [deliver, StateT.run_bind, run_writeManifests, hdirectory, if_pos rfl,
    run_writeFiles hhome hall, ← hcount]
  rfl

/-- What arguments ask for is done, once the options are there. -/
theorem run_of_request {args : List String} {config : Option String} {command : Command}
    (hrequest : Request.ofArguments args = .ok ⟨config, command⟩)
    (hoptions : (loadOptions config : StateM (Disk here) _).run disk = (.ok options, disk)) :
    (run args : StateM (Disk here) Report).run disk =
      (perform options command : StateM (Disk here) Report).run disk := by
  rw [run, hrequest]
  dsimp only
  rw [StateT.run_bind, hoptions]
  rfl

end Command

/-! ### One file for every type -/

/-- One disk becomes the other where the manifests of types are written into a directory. -/
structure Written {here : List String} (directory : String) (docs : Bool) (ds : List Descriptor)
    (disk after : Disk here) : Prop where
  /-- The file of every type holds its manifest. -/
  content : ∀ d ∈ ds,
    after.read? (manifestPath directory d) = some (d.manifest docs).pretty.toUTF8
  /-- No two types have one file. -/
  nodup : (ds.map fun d => disk.place? (manifestPath directory d)).Nodup
  /-- No other file changes. -/
  others : ∀ place, (∀ d ∈ ds, disk.place? (manifestPath directory d) ≠ some place) →
    Entries.get? place after.files = Entries.get? place disk.files
  /-- No directory is made or removed. -/
  directories : after.directories = disk.directories

section Compile

variable {here : List String} {disk : Disk here} {directory : String} {docs : Bool}
  {ds : List Descriptor}

theorem written_of_run {home : List String} (hhome : disk.place? directory = some home)
    (hnames : (ds.map fun d => d.name.text).Nodup)
    (hall : ∀ d ∈ ds, disk.Writable (manifestPath directory d)) :
    Written directory docs ds disk (disk.putFiles (manifestFiles home docs ds)) := by
  have hplace : ∀ d ∈ ds, disk.place? (manifestPath directory d) =
        some (home ++ [d.manifestName]) ∧
      disk.hasDirectory (home ++ [d.manifestName]) = false := by
    intro d hd
    obtain ⟨place, hplace, hfile⟩ := hall d hd
    obtain rfl := Disk.place?_joinPath hhome d.isFileName_manifestName hplace
    exact ⟨hplace, hfile⟩
  have hnodup := Descriptor.nodup_manifestNames hnames
  refine ⟨fun d hd => ?_, ?_, ?_, rfl⟩
  · obtain ⟨hd', hfile⟩ := hplace d hd
    rw [Disk.read?_eq_of_place? (by rw [Disk.place?_putFiles, hd'])
      (by rw [Disk.hasDirectory_putFiles, hfile])]
    exact get?_manifestFiles hnodup docs disk.files hd
  · have hinjective : Function.Injective fun name : String => some (home ++ [name]) :=
      fun x y h => List.singleton_inj.mp (List.append_cancel_left (Option.some.inj h))
    rw [List.map_congr_left fun d hd => (hplace d hd).1]
    have hmap := hnodup.map hinjective
    rwa [List.map_map] at hmap
  · intro place hother
    refine get?_of_no_manifest docs disk.files fun d hd heq => hother d hd ?_
    rw [(hplace d hd).1, heq]

/-- Once all types of a schema compile, each of them gets a file of its own in a directory where
files can be written, with the manifest that the command otherwise prints at that position; and
nothing else on the disk changes.  Where the schema or the directory is refused, nothing does. -/
theorem compile_writes_one_file_per_type {here : List String} (disk : Disk here)
    (options : Options) (path : String) (docs : Bool) (directory : String) :
    (∀ args config command, Request.ofArguments args = .ok ⟨config, command⟩ →
      (loadOptions config : StateM (Disk here) _).run disk = (.ok options, disk) →
      (run args : StateM (Disk here) Report).run disk =
        (perform options command : StateM (Disk here) Report).run disk) ∧
    (∀ schema ds, Json.ofSource path (disk.read? path) = .ok schema →
      schema.compileSchema options = .ok ds → disk.isDirectory directory = true →
      (∀ d ∈ ds, disk.Writable (manifestPath directory d)) →
      ds.map (fun d => d.name.text) = schema.declaredNames ∧
      (perform options (.compile path docs none) : StateM (Disk here) Report).run disk =
        (.success ((Json.arr (ds.map (Descriptor.manifest (options.docs || docs)))).pretty ++ "\n"),
          disk) ∧
      ∃ after,
        (perform options (.compile path docs (some directory)) : StateM (Disk here) Report).run
            disk =
          (.success ("Wrote " ++ toString schema.declaredNames.length ++ " manifests to " ++
            directory ++ "\n"), after) ∧
        Written directory (options.docs || docs) ds disk after) ∧
    (((∃ e, Json.ofSource path (disk.read? path) = .error e) ∨
      (∃ schema e, Json.ofSource path (disk.read? path) = .ok schema ∧
        schema.compileSchema options = .error e) ∨
      disk.isDirectory directory = false) →
      ∃ report, report.code = 1 ∧
        (perform options (.compile path docs (some directory)) : StateM (Disk here) Report).run
          disk = (report, disk)) := by
  refine ⟨fun _ _ _ => run_of_request, fun schema ds hschema hds hdirectory hall => ?_, ?_⟩
  · obtain ⟨home, hhome, -⟩ := (Option.any_eq_true _ _).mp hdirectory
    have hnames : ds.map (fun d => d.name.text) = schema.declaredNames :=
      Json.names_of_compileSchema hds
    have hlength : ds.length = schema.declaredNames.length := by
      rw [← hnames, List.length_map]
    have hnodup : (ds.map fun d => d.name.text).Nodup := by
      rw [hnames]
      exact Json.nodup_declaredNames_of_ofSource hschema
    refine ⟨hnames, ?_, _, ?_, written_of_run hhome hnodup hall⟩
    · rw [run_compile_of_ok hschema hds, run_deliver_to_output]
    · rw [run_compile_of_ok hschema hds, run_deliver hhome hdirectory hall, hlength]
  · rw [run_compile]
    rcases hschema : Json.ofSource path (disk.read? path) with e | schema
    · exact fun _ => ⟨_, rfl, rfl⟩
    · dsimp only
      rcases hds : schema.compileSchema options with e | ds
      · exact fun _ => ⟨_, rfl, rfl⟩
      · rintro (⟨e, he⟩ | ⟨_, e, he, hrefused⟩ | hmissing)
        · cases he
        · obtain rfl := Except.ok.inj he
          rw [hds] at hrefused
          cases hrefused
        · exact ⟨_, rfl, run_deliver_of_missing hmissing _⟩

/-- A tool has a name, and a shed holds tools. -/
def shed : Json :=
  .obj [("tool", .obj [("name", .str "_string")]), ("shed", .obj [("tools", .str "_array[tool]")])]

/-- The shed as a text. -/
def shedText : String :=
  "\x7b\"tool\":\x7b\"name\":\"_string\"\x7d,\"shed\":\x7b\"tools\":\"_array[tool]\"\x7d\x7d"

/-- A disk with a schema where the program runs, and beside it a directory in which a file stands
already. -/
def workshop : Disk ["bench"] where
  directories := [["out"]]
  files :=
    [(["bench", "shed.json"], shedText.toUTF8), (["out", "Notes.txt"], "Oil the saw.".toUTF8)]

/-- The schema and the directory may be named from the root or from where the program runs. -/
theorem workshop_gets_two_files :
    ∃ ds : List Descriptor, ds.map Descriptor.manifestName = ["Tool.json", "Shed.json"] ∧
      (∃ after,
        (run ["compile", "/bench/shed.json", "--out-dir", "../out"] :
            StateM (Disk _) Report).run workshop =
          (.success "Wrote 2 manifests to ../out\n", after) ∧
        Written "../out" false ds workshop after) ∧
      (∃ after,
        (run ["compile", "shed.json", "--out-dir", "/out"] : StateM (Disk _) Report).run workshop =
          (.success "Wrote 2 manifests to /out\n", after) ∧
        Written "/out" false ds workshop after) ∧
      ∃ report, report.code = 1 ∧
        (run ["compile", "shed.json", "--out-dir", "/lost"] : StateM (Disk _) Report).run workshop =
          (report, workshop) := by
  have hcompile : ∃ ds, shed.compileSchema {} = .ok ds ∧
      ds.map Descriptor.manifestName = ["Tool.json", "Shed.json"] :=
    ⟨_, by with_unfolding_all rfl, by decide⟩
  have hsource : ∀ path ∈ ["/bench/shed.json", "shed.json"],
      Json.ofSource path (workshop.read? path) = .ok shed := by
    intro path hpath
    have hplaces : ∀ path ∈ ["/bench/shed.json", "shed.json"],
        workshop.place? path = some ["bench", "shed.json"] ∧ isYamlPath path = false := by decide
    obtain ⟨hplace, hjson⟩ := hplaces path hpath
    have hread : workshop.read? path = some shedText.toUTF8 :=
      Disk.read?_eq_of_place? hplace (by decide)
    have hparse : Json.parse? shedText = some shed := by cbv
    rw [Json.ofSource, hread, readText?_toUTF8]
    dsimp only
    rw [Json.ofText, hjson, hparse]
    rfl
  obtain ⟨ds, hds, hnames⟩ := hcompile
  have hwritable : ∀ directory ∈ ["../out", "/out"], ∀ d ∈ ds,
      workshop.Writable (manifestPath directory d) := by
    have hplaces : ∀ directory ∈ ["../out", "/out"], ∀ name ∈ ["Tool.json", "Shed.json"],
        workshop.place? (joinPath directory name) = some ["out", name] ∧
          workshop.hasDirectory ["out", name] = false := by decide
    intro directory hdirectory d hd
    exact ⟨_, hplaces directory hdirectory _ (hnames ▸ List.mem_map_of_mem hd)⟩
  have hup := compile_writes_one_file_per_type workshop {} "/bench/shed.json" false "../out"
  have hroot := compile_writes_one_file_per_type workshop {} "shed.json" false "/out"
  have hlost := compile_writes_one_file_per_type workshop {} "shed.json" false "/lost"
  obtain ⟨-, -, up, hrunUp, hwrittenUp⟩ := hup.2.1 shed ds (hsource _ (by decide)) hds (by decide)
    (hwritable _ (by decide))
  obtain ⟨-, -, root, hrunRoot, hwrittenRoot⟩ := hroot.2.1 shed ds (hsource _ (by decide)) hds
    (by decide) (hwritable _ (by decide))
  obtain ⟨report, hcode, hrunLost⟩ := hlost.2.2 (.inr (.inr (by decide)))
  refine ⟨ds, hnames, ⟨up, ?_, hwrittenUp⟩, ⟨root, ?_, hwrittenRoot⟩, report, hcode, ?_⟩
  · rw [hup.1 _ none _ (by rfl) rfl, hrunUp]
    rfl
  · rw [hroot.1 _ none _ (by rfl) rfl, hrunRoot]
    rfl
  · rw [hlost.1 _ none _ (by rfl) rfl, hrunLost]

end Compile

end CommandLine
end ClassSchema
