import Mathlib.Data.List.Nodup
import Mathlib.Data.List.Perm.Basic
import Scaffold.Build
import Scaffold.Proofs.Lowering
import Scaffold.Proofs.Naming
import Scaffold.Proofs.Output.Key

/-!
# Where generated files go

Every generator puts files named after declarations into folders of their own or beside files with
fixed names. `CodeModel.folders` lists these folders with the names of their files, which are
declared names in the case of the target language.

* `Folder.nodup_keys_iff_apart`: files that are those of some folders and some others.
* `CodeModel.generate_nodup_iff`: when no two files of a generator have one key, for all platforms.
-/

namespace Scaffold

open Naming

/-! ## Files in folders -/

/-- An extension has a character behind its dot, and no slash. -/
def IsExtension (ext : String) : Prop :=
  2 < ext.toList.length ∧ '/' ∉ ext.toList

instance (ext : String) : Decidable (IsExtension ext) :=
  inferInstanceAs (Decidable (_ ∧ _))

namespace Path

theorem names_of_extension {name ext : String} (hname : '/' ∉ name.toList) (hext : IsExtension ext) :
    (Path.mk (name ++ ext)).names = [name ++ ext] := by
  have hslash : ∀ x ∈ [name ++ ext], '/' ∉ x.toList := by simp [hname, hext.2]
  have hone : Text.joinWith "/" [name ++ ext] = name ++ ext := rfl
  have hpieces := pieces_joinWith (List.cons_ne_nil _ _) hslash
  rw [hone] at hpieces
  have hlong : ∀ s : String, s.toList.length ≤ 2 → name ++ ext ≠ s := by
    rintro s hs rfl
    have := hext.1
    simp at hs
    omega
  rw [names_eq, hpieces]
  simp [hlong "" (by decide), hlong "." (by decide), hlong ".." (by decide)]

/-- Where a slash ends the first text, the names of both are put together. -/
theorem names_append {a : String} (h : a.toList.getLast? = some '/') (b : String) :
    (Path.mk (a ++ b)).names = (Path.mk a).names ++ (Path.mk b).names := by
  obtain ⟨cs, hcs⟩ := List.getLast?_eq_some_iff.1 h
  obtain rfl : a = String.ofList cs ++ "/" := String.ext (by simp [hcs])
  have hslash := names_append_slash (String.ofList cs) ""
  rw [String.append_empty] at hslash
  rw [names_append_slash, hslash]
  simp [names_eq]

/-- Where a slash starts the second text, the names of both are put together. -/
theorem names_append_of_head (a : String) {b : String} (h : b.toList.head? = some '/') :
    (Path.mk (a ++ b)).names = (Path.mk a).names ++ (Path.mk b).names := by
  obtain ⟨cs, hcs⟩ := List.head?_eq_some_iff.1 h
  obtain rfl : b = "/" ++ String.ofList cs := String.ext (by simp [hcs])
  have hslash := names_append_slash "" (String.ofList cs)
  rw [String.empty_append] at hslash
  rw [← String.append_assoc, names_append_slash, hslash]
  simp [names_eq]

/-- The last name on a path keeps the extension that the path ends with. -/
theorem names_eq_concat (ext : String) (hext : IsExtension ext) (cs : List Char) :
    ∃ names name, (Path.mk (String.ofList cs ++ ext)).names = names ++ [name ++ ext] := by
  induction hn : cs.length using Nat.strongRecOn generalizing cs with
  | ind n ih =>
    by_cases hslash : '/' ∈ cs
    · obtain ⟨as, bs, rfl⟩ := List.append_of_mem hslash
      obtain ⟨names, name, h⟩ := ih bs.length (by simp at hn; omega) bs rfl
      have hpath : String.ofList (as ++ '/' :: bs) ++ ext
          = String.ofList as ++ "/" ++ (String.ofList bs ++ ext) := String.ext (by simp)
      exact ⟨_, name, by rw [hpath, names_append_slash, h, ← List.append_assoc]⟩
    · exact ⟨[], String.ofList cs, by
        rw [names_of_extension (by simpa using hslash) hext, List.nil_append]⟩

/-- A text of a path that stands for these names, between slashes. -/
def IsFolder (text : String) (names : List String) : Prop :=
  text.toList.getLast? = some '/' ∧ (Path.mk text).names = names

instance (text : String) (names : List String) : Decidable (IsFolder text names) :=
  inferInstanceAs (Decidable (_ ∧ _))

/-- The names on the path of a file in a folder. -/
theorem names_file {folder name ext : String} {names : List String} (hfolder : IsFolder folder names)
    (hname : '/' ∉ name.toList) (hext : IsExtension ext) :
    (Path.mk s!"{folder}{name}{ext}").names = names ++ [name ++ ext] := by
  have h : s!"{folder}{name}{ext}" = folder ++ (name ++ ext) := String.append_assoc
  rw [h, names_append hfolder.1, hfolder.2, names_of_extension hname hext]

/-- A folder under another one. -/
theorem IsFolder.under {folder : String} {names : List String} (h : IsFolder folder names)
    (hhead : folder.toList.head? = some '/') (root : String) :
    IsFolder (root ++ folder) ((Path.mk root).names ++ names) := by
  refine ⟨?_, by rw [names_append_of_head root hhead, h.2]⟩
  rw [String.toList_append, List.getLast?_append, h.1, Option.some_or]

/-- The names on the path of a file in a folder under another one. -/
theorem names_file_under (root : String) {folder name ext : String} {names : List String}
    (hfolder : IsFolder folder names ∧ folder.toList.head? = some '/') (hname : '/' ∉ name.toList)
    (hext : IsExtension ext) : (Path.mk s!"{root}{folder}{name}{ext}").names
      = (Path.mk root).names ++ (names ++ [name ++ ext]) := by
  rw [← List.append_assoc]
  exact names_file (hfolder.1.under hfolder.2 root) hname hext

end Path

/-- Rewriting with this and the next lemma from the outside leaves the contents of a file alone. -/
@[simp] theorem GeneratedFile.names_mk (path content : String) :
    (GeneratedFile.mk path content).names = (Path.mk path).names :=
  rfl

@[simp] theorem Code.names_file (c : Code) (path unit : String) :
    (c.file path unit).names = (Path.mk path).names :=
  rfl

theorem nodup_keys_iff {files : List GeneratedFile} :
    (files.map (·.key)).Nodup ↔ (files.map (·.names)).Nodup := by
  rw [List.Nodup, List.Nodup, List.pairwise_map, List.pairwise_map]
  simp only [GeneratedFile.key, GeneratedFile.names, ne_eq, Path.key_inj]

/-- A folder of generated files: the names on its path, and those of its files. -/
structure Folder where
  path : List String
  names : List String

namespace Folder

/-- The names on the paths of the files in a folder. -/
def files (f : Folder) : List (List String) :=
  f.names.map fun name => f.path ++ [name]

variable {f : Folder} {folders : List Folder}

theorem nodup_files : f.files.Nodup ↔ f.names.Nodup :=
  List.nodup_map_iff fun x y h => by simpa using h

/-- Only the files of a folder have its path. -/
theorem dropLast_of_mem_files {x : List String} (h : x ∈ f.files) : x.dropLast = f.path := by
  obtain ⟨name, -, rfl⟩ := List.mem_map.1 h
  exact List.dropLast_concat

theorem not_mem_files {x : List String} (h : ∀ f ∈ folders, x.dropLast ≠ f.path) :
    x ∉ folders.flatMap files := by
  intro hx
  obtain ⟨f, hf, hx⟩ := List.mem_flatMap.1 hx
  exact h f hf (dropLast_of_mem_files hx)

/-- Files in different folders are different. -/
theorem nodup_flatMap_files (h : (folders.map path).Nodup) :
    (folders.flatMap files).Nodup ↔ ∀ f ∈ folders, f.names.Nodup := by
  have hapart : folders.Pairwise fun f g => List.Disjoint f.files g.files := by
    refine (List.pairwise_map.1 h).imp fun hpath x hf hg => hpath ?_
    rw [← dropLast_of_mem_files hf, dropLast_of_mem_files hg]
  rw [List.nodup_flatMap, and_iff_left hapart]
  exact forall₂_congr fun f _ => nodup_files

/-- Files that are those of some folders and some others have different keys if the names in each
folder are different and the others are none of these files. -/
theorem nodup_keys_iff_apart {generated : List GeneratedFile} {others : List (List String)}
    (hfiles : (generated.map (·.names)).Perm (others ++ folders.flatMap files))
    (hpaths : (folders.map path).Nodup) (hothers : others.Nodup) :
    (generated.map (·.key)).Nodup ↔
      (∀ f ∈ folders, f.names.Nodup) ∧ ∀ x ∈ others, x ∉ folders.flatMap files := by
  rw [nodup_keys_iff, hfiles.nodup_iff, List.nodup_append', nodup_flatMap_files hpaths,
    and_iff_right hothers]
  rfl

/-- The same where no other file is in one of the folders. -/
theorem nodup_keys_iff_names {generated : List GeneratedFile} {others : List (List String)}
    (hfiles : (generated.map (·.names)).Perm (others ++ folders.flatMap files))
    (hpaths : (folders.map path).Nodup) (hothers : others.Nodup)
    (hapart : ∀ x ∈ others, ∀ f ∈ folders, x.dropLast ≠ f.path) :
    (generated.map (·.key)).Nodup ↔ ∀ f ∈ folders, f.names.Nodup := by
  rw [nodup_keys_iff_apart hfiles hpaths hothers, and_iff_left fun x hx => not_mem_files (hapart x hx)]

end Folder

/-! ## Layouts -/

/-- The file of the class that a program starts in, where it has one. -/
def Project.mainClassFile (p : Project) : List String :=
  let root := Target.Java.packageDir "src/main/java" p.package
  (Path.mk s!"{root}/{p.mainClass}.java").names

namespace CodeModel

/-- The folders that hold files named after declarations. -/
def folders (m : CodeModel) (p : Project) : Platform → List Folder
  | .cpp =>
    let space := (Path.mk p.codeNamespace).names
    [⟨"include" :: space ++ ["dto"], "Dto.hpp" :: m.records.map fun r => pascal r.name ++ ".hpp"⟩,
      ⟨"include" :: space ++ ["api"], m.clients.map fun c => pascal c.name ++ ".hpp"⟩,
      ⟨["src", "api"], m.clients.map fun c => pascal c.name ++ ".cpp"⟩]
  | .cppServer =>
    let space := (Path.mk p.codeNamespace).names
    let records (folder : String) := m.records.filter (Target.Cpp.recordFolder · == folder)
    [⟨"include" :: space ++ ["models", "entity"],
        (records "entity").map fun r => pascal r.name ++ ".hpp"⟩,
      ⟨"include" :: space ++ ["models", "dto"], (records "dto").map fun r => pascal r.name ++ ".hpp"⟩,
      ⟨"include" :: space ++ ["repositories", "mappers"],
        m.mappers.map fun a => pascal a.name ++ ".hpp"⟩,
      ⟨["src", "repositories", "mappers"], m.mappers.map fun a => pascal a.name ++ ".cpp"⟩,
      ⟨"include" :: space ++ ["api"], m.services.map fun s => pascal s.name ++ ".hpp"⟩,
      ⟨["src", "api"], m.services.map fun s => pascal s.name ++ ".cpp"⟩]
  | .java | .coders =>
    let package := (Path.mk (Target.Java.packageDir "src/main/java" p.package)).names
    [⟨package ++ ["model"], m.records.map fun r => pascal r.name ++ ".java"⟩,
      ⟨package ++ ["api"], m.clients.map fun c => pascal c.name ++ ".java"⟩,
      ⟨package, ["Constants.java"]⟩]
  | .springBoot =>
    let package := (Path.mk (Target.Java.packageDir "src/main/java" p.package)).names
    [⟨package ++ ["model"], m.records.map fun r => pascal r.name ++ ".java"⟩,
      ⟨package ++ ["mapper"], m.mappers.map fun a => pascal a.name ++ ".java"⟩,
      ⟨package ++ ["controller"], m.services.map fun s => pascal s.name ++ ".java"⟩,
      ⟨package, ["Constants.java", "Functions.java"]⟩]
  | .kotlin =>
    let package := (Path.mk (Target.Java.packageDir "src/main/kotlin" p.package)).names
    [⟨package, "Models.kt" :: "Main.kt" :: m.clients.map fun c => pascal c.name ++ ".kt"⟩]
  | .cSharp =>
    let space := (Path.mk (Target.CSharp.namespaceDir p.codeNamespace)).names
    [⟨space ++ ["Models"], m.records.map fun r => pascal r.name ++ ".cs"⟩,
      ⟨space ++ ["Api"], m.clients.map fun c => pascal c.name ++ ".cs"⟩]
  | .aspNet =>
    let space := (Path.mk (Target.CSharp.namespaceDir p.codeNamespace)).names
    [⟨space ++ ["Models"], m.records.map fun r => pascal r.name ++ ".cs"⟩,
      ⟨space ++ ["Mappers"], m.mappers.map fun a => pascal a.name ++ ".cs"⟩,
      ⟨space ++ ["Controllers"], m.services.map fun s => pascal s.name ++ ".cs"⟩]
  | .go => [⟨["src"], "models.go" :: "main.go" :: m.clients.map fun c => snake c.name ++ ".go"⟩]
  | .fastApi => [⟨["app", "routers"], m.services.map fun s => snake s.name ++ ".py"⟩]
  | .express => [⟨["src", "routes"], m.services.map fun s => camel s.name ++ ".js"⟩]
  | .flutter => [⟨["lib", "pages"], m.pages.map fun p => snake p.name ++ ".dart"⟩]
  | .vueJs => [⟨["src", "pages"], m.pages.map fun p => pascal p.name ++ ".vue"⟩]
  | .react => [⟨["src", "pages"], m.pages.map fun p => pascal p.name ++ ".tsx"⟩]
  | _ => []

end CodeModel

namespace Target

variable (m : CodeModel) (p : Project)

/-! ### Java and Kotlin -/

theorem Java.names_packageDir (source package : String) :
    (Path.mk (packageDir source package)).names
      = (Path.mk source).names ++ (Path.mk (Text.replaceChar '.' "/" package)).names :=
  Path.names_append_slash source _

theorem Java.names_mainClassFile : p.mainClassFile
    = "src" :: "main" :: "java" :: (Path.mk (Text.replaceChar '.' "/" p.package)).names
      ++ (Path.mk s!"{p.mainClass}.java").names := by
  have hsource : (Path.mk "src/main/java").names = ["src", "main", "java"] := by decide
  have hpackage := names_packageDir "src/main/java" p.package
  have hpath : ∀ root : String, s!"{root}/{p.mainClass}.java" = root ++ "/" ++ s!"{p.mainClass}.java" :=
    fun root => String.ext (by simp [toString])
  rw [Project.mainClassFile, hpath, Path.names_append_slash, hpackage, hsource]
  rfl

/-- The path of a class in a folder of the package. -/
theorem Java.names_class (folder : String) (names : List String)
    (hfolder : Path.IsFolder folder names ∧ folder.toList.head? = some '/') (root name : String) :
    (Path.mk s!"{root}{folder}{pascal name}.java").names
      = (Path.mk root).names ++ (names ++ [pascal name ++ ".java"]) :=
  Path.names_file_under root hfolder (slash_not_mem_pascal name) (by decide)

theorem Java.client_nodup :
    ((client m p).map (·.key)).Nodup ↔ (∀ f ∈ m.folders p .java, f.names.Nodup) ∧
      p.mainClassFile ∉ (m.folders p .java).flatMap Folder.files := by
  have hmodel := names_class "/model/" ["model"] (by decide)
  have hapi := names_class "/api/" ["api"] (by decide)
  have hconstants : ∀ (root : String), (Path.mk s!"{root}/{constantsClass}.java").names
      = (Path.mk root).names ++ ([] ++ ["Constants.java"]) := fun root =>
    Path.names_file_under root (by decide) (by decide) (by decide)
  have hpom : (Path.mk "pom.xml").names = ["pom.xml"] := by decide
  have hsource : (Path.mk "src/main/java").names = ["src", "main", "java"] := by decide
  have hfiles : ((client m p).map (·.names)).Perm
      ([["pom.xml"], p.mainClassFile] ++ (m.folders p .java).flatMap Folder.files) := by
    refine List.perm_iff_count.2 fun x => ?_
    simp [client, ↓Code.names_file, recordFiles, pomFile, Function.comp_def, hmodel, hapi,
      hconstants, hpom, CodeModel.folders, Folder.files, List.count_cons, Project.mainClassFile]
    omega
  have hpaths : ((m.folders p .java).map (·.path)).Nodup := by simp [CodeModel.folders]
  have hpomApart : ["pom.xml"] ∉ (m.folders p .java).flatMap Folder.files :=
    Folder.not_mem_files (by simp [CodeModel.folders, names_packageDir, hsource])
  rw [Folder.nodup_keys_iff_apart hfiles hpaths (by simp [names_mainClassFile])]
  simp only [List.mem_cons, List.not_mem_nil, or_false, forall_eq_or_imp, forall_eq, hpomApart,
    not_false_eq_true, true_and]

theorem Java.springBoot_nodup :
    ((springBoot m p).map (·.key)).Nodup ↔ (∀ f ∈ m.folders p .springBoot, f.names.Nodup) ∧
      p.mainClassFile ∉ (m.folders p .springBoot).flatMap Folder.files := by
  have hmodel := names_class "/model/" ["model"] (by decide)
  have hmapper := names_class "/mapper/" ["mapper"] (by decide)
  have hcontroller := names_class "/controller/" ["controller"] (by decide)
  have hconstants : ∀ (root : String), (Path.mk s!"{root}/{constantsClass}.java").names
      = (Path.mk root).names ++ ([] ++ ["Constants.java"]) := fun root =>
    Path.names_file_under root (by decide) (by decide) (by decide)
  have hfunctions : ∀ (root : String), (Path.mk s!"{root}/Functions.java").names
      = (Path.mk root).names ++ (Path.mk "/Functions.java").names := fun root =>
    Path.names_append_of_head root (by decide)
  have hfixed : (Path.mk "pom.xml").names = ["pom.xml"] ∧
      (Path.mk "src/main/resources/application.yml").names
        = ["src", "main", "resources", "application.yml"] ∧
      (Path.mk "/Functions.java").names = ["Functions.java"] ∧
      (Path.mk "src/main/java").names = ["src", "main", "java"] := by decide
  obtain ⟨hpom, hsettings, hfunctionsFile, hsource⟩ := hfixed
  have hfiles : ((springBoot m p).map (·.names)).Perm
      ([["pom.xml"], ["src", "main", "resources", "application.yml"], p.mainClassFile]
        ++ (m.folders p .springBoot).flatMap Folder.files) := by
    refine List.perm_iff_count.2 fun x => ?_
    simp [springBoot, ↓Code.names_file, ↓GeneratedFile.names_mk, recordFiles, pomFile,
      Function.comp_def, hmodel, hmapper, hcontroller, hconstants, hfunctions, hfunctionsFile, hpom,
      hsettings, CodeModel.folders, Folder.files, List.count_cons, Project.mainClassFile]
    omega
  have hpaths : ((m.folders p .springBoot).map (·.path)).Nodup := by simp [CodeModel.folders]
  have hpomApart : ["pom.xml"] ∉ (m.folders p .springBoot).flatMap Folder.files :=
    Folder.not_mem_files (by simp [CodeModel.folders, names_packageDir, hsource])
  have hsettingsApart : ["src", "main", "resources", "application.yml"]
      ∉ (m.folders p .springBoot).flatMap Folder.files :=
    Folder.not_mem_files (by simp [CodeModel.folders, names_packageDir, hsource])
  rw [Folder.nodup_keys_iff_apart hfiles hpaths (by simp [names_mainClassFile])]
  simp only [List.mem_cons, List.not_mem_nil, or_false, forall_eq_or_imp, forall_eq, hpomApart,
    hsettingsApart, not_false_eq_true, true_and]

theorem Kotlin.client_nodup :
    ((client m p).map (·.key)).Nodup ↔ ∀ f ∈ m.folders p .kotlin, f.names.Nodup := by
  have hclass : ∀ root name : String, (Path.mk s!"{root}/{pascal name}.kt").names
      = (Path.mk root).names ++ ([] ++ [pascal name ++ ".kt"]) := fun root name =>
    Path.names_file_under root (by decide) (slash_not_mem_pascal name) (by decide)
  have hmodels : ∀ root : String, (Path.mk s!"{root}/Models.kt").names
      = (Path.mk root).names ++ (Path.mk "/Models.kt").names := fun root =>
    Path.names_append_of_head root (by decide)
  have hmain : ∀ root : String, (Path.mk s!"{root}/Main.kt").names
      = (Path.mk root).names ++ (Path.mk "/Main.kt").names := fun root =>
    Path.names_append_of_head root (by decide)
  have hfixed : (Path.mk "build.gradle.kts").names = ["build.gradle.kts"] ∧
      (Path.mk "settings.gradle.kts").names = ["settings.gradle.kts"] ∧
      (Path.mk "/Models.kt").names = ["Models.kt"] ∧ (Path.mk "/Main.kt").names = ["Main.kt"] ∧
      (Path.mk "src/main/kotlin").names = ["src", "main", "kotlin"] := by decide
  obtain ⟨hbuild, hsettings, hmodelsFile, hmainFile, hsource⟩ := hfixed
  have hfiles : ((client m p).map (·.names)).Perm
      ([["build.gradle.kts"], ["settings.gradle.kts"]]
        ++ (m.folders p .kotlin).flatMap Folder.files) := by
    refine List.perm_iff_count.2 fun x => ?_
    simp [client, ↓Code.names_file, ↓GeneratedFile.names_mk, Function.comp_def, hclass, hmodels,
      hmain, hbuild, hsettings, hmodelsFile, hmainFile, CodeModel.folders, Folder.files,
      List.count_cons]
  exact Folder.nodup_keys_iff_names hfiles (by simp [CodeModel.folders]) (by decide)
    (by simp [CodeModel.folders, Java.names_packageDir, hsource])

/-! ### C++ -/

theorem count_flatMap_pair {α : Type} (x : List String) (l : List α) (f g : α → List String) :
    (l.flatMap fun a => [f a, g a]).count x = (l.map f).count x + (l.map g).count x := by
  induction l with
  | nil => rfl
  | cons a l ih =>
    simp only [List.flatMap_cons, List.count_append, List.map_cons, List.count_cons, List.count_nil, ih]
    omega

theorem Cpp.client_nodup :
    ((client m p).map (·.key)).Nodup ↔ ∀ f ∈ m.folders p .cpp, f.names.Nodup := by
  have hinclude : (Path.mk "include/").names = ["include"] := by decide
  have hspace : (Path.mk s!"include/{p.codeNamespace}").names
      = "include" :: (Path.mk p.codeNamespace).names :=
    (Path.names_append (by decide) _).trans (congrArg (· ++ _) hinclude)
  have hdto : ∀ name, (Path.mk s!"include/{p.codeNamespace}/dto/{pascal name}.hpp").names
      = (Path.mk s!"include/{p.codeNamespace}").names ++ (["dto"] ++ [pascal name ++ ".hpp"]) :=
    fun name => Path.names_file_under _ (by decide) (slash_not_mem_pascal name) (by decide)
  have hapi : ∀ name, (Path.mk s!"include/{p.codeNamespace}/api/{pascal name}.hpp").names
      = (Path.mk s!"include/{p.codeNamespace}").names ++ (["api"] ++ [pascal name ++ ".hpp"]) :=
    fun name => Path.names_file_under _ (by decide) (slash_not_mem_pascal name) (by decide)
  have humbrella : (Path.mk s!"include/{p.codeNamespace}/dto/Dto.hpp").names
      = (Path.mk s!"include/{p.codeNamespace}").names ++ (Path.mk "/dto/Dto.hpp").names :=
    Path.names_append_of_head _ (by decide)
  have hsource : ∀ name, (Path.mk s!"src/api/{pascal name}.cpp").names
      = ["src", "api"] ++ [pascal name ++ ".cpp"] :=
    fun name => Path.names_file (by decide) (slash_not_mem_pascal name) (by decide)
  have hfixed : (Path.mk "src/main.cpp").names = ["src", "main.cpp"] ∧
      (Path.mk "CMakeLists.txt").names = ["CMakeLists.txt"] ∧
      (Path.mk "/dto/Dto.hpp").names = ["dto", "Dto.hpp"] := by decide
  obtain ⟨hmain, hcmake, hdtoFile⟩ := hfixed
  have hfiles : ((client m p).map (·.names)).Perm
      ([["src", "main.cpp"], ["CMakeLists.txt"]] ++ (m.folders p .cpp).flatMap Folder.files) := by
    refine List.perm_iff_count.2 fun x => ?_
    simp [client, ↓Code.names_file, cmakeFile, Function.comp_def, List.map_flatMap,
      count_flatMap_pair, hdto, hapi, humbrella, hsource, hspace, hmain, hcmake, hdtoFile,
      CodeModel.folders, Folder.files, List.count_cons]
    omega
  exact Folder.nodup_keys_iff_names hfiles (by simp [CodeModel.folders]) (by decide)
    (by simp [CodeModel.folders])

theorem Cpp.recordFolder_eq (r : Model.DataType) :
    recordFolder r = "entity" ∨ recordFolder r = "dto" := by
  unfold recordFolder
  split <;> simp

theorem Cpp.count_recordFiles (x : List String) (l : List Model.DataType)
    (f : String → Model.DataType → List String) :
    (l.map fun r => f (recordFolder r) r).count x
      = ((l.filter (recordFolder · == "entity")).map (f "entity")).count x
        + ((l.filter (recordFolder · == "dto")).map (f "dto")).count x := by
  induction l with
  | nil => rfl
  | cons r l ih =>
    obtain h | h := recordFolder_eq r <;> simp [h, List.count_cons, ih] <;> omega

theorem Cpp.server_nodup :
    ((server m p).map (·.key)).Nodup ↔ ∀ f ∈ m.folders p .cppServer, f.names.Nodup := by
  have hinclude : (Path.mk "include/").names = ["include"] := by decide
  have hspace : (Path.mk s!"include/{p.codeNamespace}").names
      = "include" :: (Path.mk p.codeNamespace).names :=
    (Path.names_append (by decide) _).trans (congrArg (· ++ _) hinclude)
  have hrecord : ∀ r : Model.DataType,
      (Path.mk s!"include/{p.codeNamespace}/models/{recordFolder r}/{pascal r.name}.hpp").names
        = (Path.mk s!"include/{p.codeNamespace}").names
          ++ ["models", recordFolder r, pascal r.name ++ ".hpp"] := by
    intro r
    have hfolder : (Path.mk (recordFolder r)).names = [recordFolder r] := by
      obtain h | h := recordFolder_eq r <;> rw [h] <;> decide
    have hmodels : Path.IsFolder "/models/" ["models"] ∧ "/models/".toList.head? = some '/' := by decide
    have hpath : s!"include/{p.codeNamespace}/models/{recordFolder r}/{pascal r.name}.hpp"
        = s!"include/{p.codeNamespace}" ++ "/models/" ++ recordFolder r ++ "/"
          ++ (pascal r.name ++ ".hpp") := String.ext (by simp [toString])
    have hroot := hmodels.1.under hmodels.2 s!"include/{p.codeNamespace}"
    rw [hpath, Path.names_append_slash, Path.names_append hroot.1, hroot.2, hfolder,
      Path.names_of_extension (slash_not_mem_pascal _) (by decide)]
    simp
  have hmapper : ∀ name,
      (Path.mk s!"include/{p.codeNamespace}/repositories/mappers/{pascal name}.hpp").names
        = (Path.mk s!"include/{p.codeNamespace}").names
          ++ (["repositories", "mappers"] ++ [pascal name ++ ".hpp"]) :=
    fun name => Path.names_file_under _ (by decide) (slash_not_mem_pascal name) (by decide)
  have hapi : ∀ name, (Path.mk s!"include/{p.codeNamespace}/api/{pascal name}.hpp").names
      = (Path.mk s!"include/{p.codeNamespace}").names ++ (["api"] ++ [pascal name ++ ".hpp"]) :=
    fun name => Path.names_file_under _ (by decide) (slash_not_mem_pascal name) (by decide)
  have humbrella : (Path.mk s!"include/{p.codeNamespace}/models/Models.hpp").names
      = (Path.mk s!"include/{p.codeNamespace}").names ++ (Path.mk "/models/Models.hpp").names :=
    Path.names_append_of_head _ (by decide)
  have hmapperSource : ∀ name, (Path.mk s!"src/repositories/mappers/{pascal name}.cpp").names
      = ["src", "repositories", "mappers"] ++ [pascal name ++ ".cpp"] :=
    fun name => Path.names_file (by decide) (slash_not_mem_pascal name) (by decide)
  have hsource : ∀ name, (Path.mk s!"src/api/{pascal name}.cpp").names
      = ["src", "api"] ++ [pascal name ++ ".cpp"] :=
    fun name => Path.names_file (by decide) (slash_not_mem_pascal name) (by decide)
  have hfixed : (Path.mk "src/main.cpp").names = ["src", "main.cpp"] ∧
      (Path.mk "CMakeLists.txt").names = ["CMakeLists.txt"] ∧
      (Path.mk "/models/Models.hpp").names = ["models", "Models.hpp"] := by decide
  obtain ⟨hmain, hcmake, hmodelsFile⟩ := hfixed
  have hfiles : ((server m p).map (·.names)).Perm
      ([["src", "main.cpp"], ["CMakeLists.txt"],
          "include" :: (Path.mk p.codeNamespace).names ++ ["models", "Models.hpp"]]
        ++ (m.folders p .cppServer).flatMap Folder.files) := by
    refine List.perm_iff_count.2 fun x => ?_
    have hrecords := count_recordFiles x m.records fun folder r =>
      "include" :: ((Path.mk p.codeNamespace).names ++ ["models", folder, pascal r.name ++ ".hpp"])
    simp [server, ↓Code.names_file, cmakeFile, Function.comp_def, List.map_flatMap,
      count_flatMap_pair, hrecord, hmapper, hapi, humbrella, hmapperSource, hsource, hspace, hmain,
      hcmake, hmodelsFile, hrecords, CodeModel.folders, Folder.files, List.count_cons]
    omega
  exact Folder.nodup_keys_iff_names hfiles (by simp [CodeModel.folders]) (by simp)
    (by simp [CodeModel.folders, List.dropLast_cons_of_ne_nil, List.dropLast_append_of_ne_nil])

/-! ### C# -/

/-- The path of a class in a folder of the namespace. -/
theorem CSharp.names_class (folder : String) (names : List String)
    (hfolder : Path.IsFolder folder names ∧ folder.toList.head? = some '/') (root name : String) :
    (Path.mk s!"{root}{folder}{pascal name}.cs").names
      = (Path.mk root).names ++ (names ++ [pascal name ++ ".cs"]) :=
  Path.names_file_under root hfolder (slash_not_mem_pascal name) (by decide)

/-- The project file is the only one whose name ends like this. -/
theorem CSharp.names_projectFile (root space : String) :
    (∃ names, (Path.mk s!"{root}/{space}.csproj").names = (Path.mk root).names ++ names) ∧
      ∀ folder : List String, ∀ file : String, file.toList.getLast? ≠ some 'j' →
        (Path.mk s!"{root}/{space}.csproj").names ≠ folder ++ [file] := by
  obtain ⟨names, name, h⟩ := Path.names_eq_concat ".csproj" (by decide) space.toList
  have hpath : s!"{root}/{space}.csproj" = root ++ "/" ++ (String.ofList space.toList ++ ".csproj") :=
    String.ext (by simp [toString])
  have hnames : (Path.mk s!"{root}/{space}.csproj").names
      = (Path.mk root).names ++ (names ++ [name ++ ".csproj"]) := by
    rw [hpath, Path.names_append_slash, h]
  refine ⟨⟨_, hnames⟩, fun folder file hfile heq => hfile ?_⟩
  have hlast : name ++ ".csproj" = file := by
    rw [hnames] at heq
    simpa using congrArg List.getLast? heq
  simp [← hlast]

theorem CSharp.client_nodup :
    ((client m p).map (·.key)).Nodup ↔ ∀ f ∈ m.folders p .cSharp, f.names.Nodup := by
  have hmodel := names_class "/Models/" ["Models"] (by decide)
  have hapi := names_class "/Api/" ["Api"] (by decide)
  have hfixed : ∀ root file : String, file.toList.head? = some '/' →
      (Path.mk (toString root ++ toString file)).names = (Path.mk root).names ++ (Path.mk file).names :=
    fun root file h => Path.names_append_of_head root h
  have hconstants := fun root => hfixed root "/Constants.cs" (by decide)
  have hprogram := fun root => hfixed root "/Program.cs" (by decide)
  have hfiles : ((client m p).map (·.names)).Perm
      ([(Path.mk s!"{namespaceDir p.codeNamespace}/{p.codeNamespace}.csproj").names,
          (Path.mk (namespaceDir p.codeNamespace)).names ++ ["Constants.cs"],
          (Path.mk (namespaceDir p.codeNamespace)).names ++ ["Program.cs"]]
        ++ (m.folders p .cSharp).flatMap Folder.files) := by
    have hnames : (Path.mk "/Constants.cs").names = ["Constants.cs"] ∧
      (Path.mk "/Program.cs").names = ["Program.cs"] := by decide
    refine List.perm_iff_count.2 fun x => ?_
    simp [client, ↓Code.names_file, recordFiles, Function.comp_def, hmodel, hapi, hconstants,
      hprogram, hnames, CodeModel.folders, Folder.files, List.count_cons]
    omega
  obtain ⟨-, hproject⟩ := names_projectFile (namespaceDir p.codeNamespace) p.codeNamespace
  have hprojectApart : (Path.mk s!"{namespaceDir p.codeNamespace}/{p.codeNamespace}.csproj").names
      ∉ (m.folders p .cSharp).flatMap Folder.files := by
    simp only [CodeModel.folders, Folder.files, List.flatMap_cons, List.flatMap_nil, List.mem_append,
      List.map_map, List.mem_map, List.not_mem_nil, or_false, not_or, not_exists, not_and]
    exact ⟨fun r _ h => hproject _ _ (by simp) h.symm, fun r _ h => hproject _ _ (by simp) h.symm⟩
  have hothers : [(Path.mk s!"{namespaceDir p.codeNamespace}/{p.codeNamespace}.csproj").names,
      (Path.mk (namespaceDir p.codeNamespace)).names ++ ["Constants.cs"],
      (Path.mk (namespaceDir p.codeNamespace)).names ++ ["Program.cs"]].Nodup := by
    simp only [List.nodup_cons, List.mem_cons, List.not_mem_nil, or_false, not_or, List.append_cancel_left_eq]
    exact ⟨⟨hproject _ _ (by decide), hproject _ _ (by decide)⟩, by simp⟩
  rw [Folder.nodup_keys_iff_apart hfiles (by simp [CodeModel.folders]) hothers, and_iff_left]
  simp only [List.mem_cons, List.not_mem_nil, or_false, forall_eq_or_imp, forall_eq]
  exact ⟨hprojectApart, Folder.not_mem_files (by simp [CodeModel.folders]),
    Folder.not_mem_files (by simp [CodeModel.folders])⟩

theorem CSharp.aspNet_nodup :
    ((aspNet m p).map (·.key)).Nodup ↔ ∀ f ∈ m.folders p .aspNet, f.names.Nodup := by
  have hmodel := names_class "/Models/" ["Models"] (by decide)
  have hmapper := names_class "/Mappers/" ["Mappers"] (by decide)
  have hcontroller := names_class "/Controllers/" ["Controllers"] (by decide)
  have hfixed : ∀ root file : String, file.toList.head? = some '/' →
      (Path.mk (toString root ++ toString file)).names = (Path.mk root).names ++ (Path.mk file).names :=
    fun root file h => Path.names_append_of_head root h
  have hsettings := fun root => hfixed root "/appsettings.json" (by decide)
  have hconstants := fun root => hfixed root "/Constants.cs" (by decide)
  have hfunctions := fun root => hfixed root "/Functions.cs" (by decide)
  have hprogram := fun root => hfixed root "/Program.cs" (by decide)
  have hfiles : ((aspNet m p).map (·.names)).Perm
      ([(Path.mk s!"{namespaceDir p.codeNamespace}/{p.codeNamespace}.csproj").names,
          (Path.mk (namespaceDir p.codeNamespace)).names ++ ["appsettings.json"],
          (Path.mk (namespaceDir p.codeNamespace)).names ++ ["Constants.cs"],
          (Path.mk (namespaceDir p.codeNamespace)).names ++ ["Functions.cs"],
          (Path.mk (namespaceDir p.codeNamespace)).names ++ ["Program.cs"]]
        ++ (m.folders p .aspNet).flatMap Folder.files) := by
    have hnames : (Path.mk "/appsettings.json").names = ["appsettings.json"] ∧
      (Path.mk "/Constants.cs").names = ["Constants.cs"] ∧
      (Path.mk "/Functions.cs").names = ["Functions.cs"] ∧
      (Path.mk "/Program.cs").names = ["Program.cs"] := by decide
    refine List.perm_iff_count.2 fun x => ?_
    simp [aspNet, ↓Code.names_file, ↓GeneratedFile.names_mk, recordFiles, Function.comp_def, hmodel,
      hmapper, hcontroller, hsettings, hconstants, hfunctions, hprogram, hnames, CodeModel.folders,
      Folder.files, List.count_cons]
    omega
  obtain ⟨-, hproject⟩ := names_projectFile (namespaceDir p.codeNamespace) p.codeNamespace
  have hprojectApart : (Path.mk s!"{namespaceDir p.codeNamespace}/{p.codeNamespace}.csproj").names
      ∉ (m.folders p .aspNet).flatMap Folder.files := by
    simp only [CodeModel.folders, Folder.files, List.flatMap_cons, List.flatMap_nil, List.mem_append,
      List.map_map, List.mem_map, List.not_mem_nil, or_false, not_or, not_exists, not_and]
    exact ⟨fun r _ h => hproject _ _ (by simp) h.symm, fun r _ h => hproject _ _ (by simp) h.symm,
      fun r _ h => hproject _ _ (by simp) h.symm⟩
  have hothers : [(Path.mk s!"{namespaceDir p.codeNamespace}/{p.codeNamespace}.csproj").names,
      (Path.mk (namespaceDir p.codeNamespace)).names ++ ["appsettings.json"],
      (Path.mk (namespaceDir p.codeNamespace)).names ++ ["Constants.cs"],
      (Path.mk (namespaceDir p.codeNamespace)).names ++ ["Functions.cs"],
      (Path.mk (namespaceDir p.codeNamespace)).names ++ ["Program.cs"]].Nodup := by
    rw [List.nodup_cons]
    simp only [List.mem_cons, List.not_mem_nil, or_false, not_or]
    exact ⟨⟨hproject _ _ (by decide), hproject _ _ (by decide), hproject _ _ (by decide),
      hproject _ _ (by decide)⟩, by simp⟩
  rw [Folder.nodup_keys_iff_apart hfiles (by simp [CodeModel.folders]) hothers, and_iff_left]
  simp only [List.mem_cons, List.not_mem_nil, or_false, forall_eq_or_imp, forall_eq]
  exact ⟨hprojectApart, Folder.not_mem_files (by simp [CodeModel.folders]),
    Folder.not_mem_files (by simp [CodeModel.folders]), Folder.not_mem_files (by simp [CodeModel.folders]),
    Folder.not_mem_files (by simp [CodeModel.folders])⟩

/-! ### Files under fixed folders -/

theorem Go.client_nodup :
    ((client m p).map (·.key)).Nodup ↔ ∀ f ∈ m.folders p .go, f.names.Nodup := by
  have hclient : ∀ name, (Path.mk s!"src/{snake name}.go").names
      = ["src"] ++ [snake name ++ ".go"] :=
    fun name => Path.names_file (by decide) (slash_not_mem_snake name) (by decide)
  have hfixed : (Path.mk "go.mod").names = ["go.mod"] ∧
      (Path.mk "src/models.go").names = ["src", "models.go"] ∧
      (Path.mk "src/main.go").names = ["src", "main.go"] := by decide
  obtain ⟨hmod, hmodels, hmain⟩ := hfixed
  have hfiles : ((client m p).map (·.names)).Perm
      ([["go.mod"]] ++ (m.folders p .go).flatMap Folder.files) := by
    refine List.perm_iff_count.2 fun x => ?_
    simp [client, ↓Code.names_file, moduleFile, modelsFile, clientFile, mainFile, Function.comp_def,
      hclient, hmod, hmodels, hmain, CodeModel.folders, Folder.files, List.count_cons]
  exact Folder.nodup_keys_iff_names hfiles (by simp [CodeModel.folders]) (by decide)
    (by simp [CodeModel.folders])

theorem Python.fastApi_nodup :
    ((fastApi m p).map (·.key)).Nodup ↔ ∀ f ∈ m.folders p .fastApi, f.names.Nodup := by
  have hrouter : ∀ name, (Path.mk s!"app/routers/{snake name}.py").names
      = ["app", "routers"] ++ [snake name ++ ".py"] :=
    fun name => Path.names_file (by decide) (slash_not_mem_snake name) (by decide)
  have hfixed : (Path.mk "requirements.txt").names = ["requirements.txt"] ∧
      (Path.mk "app/__init__.py").names = ["app", "__init__.py"] ∧
      (Path.mk "app/models.py").names = ["app", "models.py"] ∧
      (Path.mk "app/mappers.py").names = ["app", "mappers.py"] ∧
      (Path.mk "app/db.py").names = ["app", "db.py"] ∧
      (Path.mk "app/routers/__init__.py").names = ["app", "routers", "__init__.py"] ∧
      (Path.mk "app/main.py").names = ["app", "main.py"] := by decide
  obtain ⟨hrequirements, hinit, hmodels, hmappers, hdb, hrouters, hmain⟩ := hfixed
  have hfiles : ((fastApi m p).map (·.names)).Perm
      ([["requirements.txt"], ["app", "__init__.py"], ["app", "models.py"], ["app", "mappers.py"],
          ["app", "db.py"], ["app", "main.py"], ["app", "routers", "__init__.py"]]
        ++ (m.folders p .fastApi).flatMap Folder.files) := by
    refine List.perm_iff_count.2 fun x => ?_
    simp [fastApi, ↓Code.names_file, ↓GeneratedFile.names_mk, requirementsFile, mappersFile,
      databaseFile, routerFile, Function.comp_def, hrouter, hrequirements, hinit, hmodels, hmappers,
      hdb, hrouters, hmain, CodeModel.folders, Folder.files, List.count_cons]
    omega
  have hinitApart : ["app", "routers", "__init__.py"] ∉ (m.folders p .fastApi).flatMap Folder.files := by
    simp only [CodeModel.folders, List.flatMap_cons, List.flatMap_nil, List.append_nil, Folder.files,
      List.map_map, List.mem_map, not_exists, not_and]
    intro s _ h
    have hname : snake s.name ++ ".py" = "__init__" ++ ".py" := by simpa using h
    refine head_snake s.name ?_
    rw [(String.append_left_inj ".py").1 hname]
    decide
  rw [Folder.nodup_keys_iff_apart hfiles (by simp [CodeModel.folders]) (by decide),
    and_iff_left fun x hx => ?_]
  by_cases hinitFile : x = ["app", "routers", "__init__.py"]
  · rwa [hinitFile]
  · refine Folder.not_mem_files ?_
    simp only [List.mem_cons, List.not_mem_nil, or_false] at hx
    obtain rfl | rfl | rfl | rfl | rfl | rfl | rfl := hx
    all_goals first | exact absurd rfl hinitFile | simp [CodeModel.folders]

theorem JavaScript.express_nodup :
    ((express m p).map (·.key)).Nodup ↔ ∀ f ∈ m.folders p .express, f.names.Nodup := by
  have hroute : ∀ name, (Path.mk s!"src/routes/{camel name}.js").names
      = ["src", "routes"] ++ [camel name ++ ".js"] :=
    fun name => Path.names_file (by decide) (slash_not_mem_camel name) (by decide)
  have hfixed : (Path.mk "package.json").names = ["package.json"] ∧
      (Path.mk "src/models.js").names = ["src", "models.js"] ∧
      (Path.mk "src/mappers.js").names = ["src", "mappers.js"] ∧
      (Path.mk "src/db.js").names = ["src", "db.js"] ∧
      (Path.mk "src/main.js").names = ["src", "main.js"] := by decide
  obtain ⟨hpackage, hmodels, hmappers, hdb, hmain⟩ := hfixed
  have hfiles : ((express m p).map (·.names)).Perm
      ([["package.json"], ["src", "models.js"], ["src", "mappers.js"], ["src", "db.js"],
          ["src", "main.js"]] ++ (m.folders p .express).flatMap Folder.files) := by
    refine List.perm_iff_count.2 fun x => ?_
    simp [express, ↓Code.names_file, packageFile, Function.comp_def, hroute, hpackage, hmodels,
      hmappers, hdb, hmain, CodeModel.folders, Folder.files, List.count_cons]
  exact Folder.nodup_keys_iff_names hfiles (by simp [CodeModel.folders]) (by decide)
    (by simp [CodeModel.folders])

theorem Dart.names_apiFile : ((apiFile m).map (·.names)).Sublist [["lib", "api.dart"]] := by
  have hapi : (Path.mk "lib/api.dart").names = ["lib", "api.dart"] := by decide
  unfold apiFile
  split <;> simp [hapi]

theorem Dart.flutter_nodup :
    ((flutter m p).map (·.key)).Nodup ↔ ∀ f ∈ m.folders p .flutter, f.names.Nodup := by
  have hpage : ∀ name, (Path.mk s!"lib/pages/{snake name}.dart").names
      = ["lib", "pages"] ++ [snake name ++ ".dart"] :=
    fun name => Path.names_file (by decide) (slash_not_mem_snake name) (by decide)
  have hfixed : (Path.mk "pubspec.yaml").names = ["pubspec.yaml"] ∧
      (Path.mk "lib/models.dart").names = ["lib", "models.dart"] ∧
      (Path.mk "lib/functions.dart").names = ["lib", "functions.dart"] ∧
      (Path.mk "lib/main.dart").names = ["lib", "main.dart"] := by decide
  obtain ⟨hpackage, hmodels, hfunctions, hmain⟩ := hfixed
  obtain ⟨functions, hflutter, hlibrary⟩ : ∃ functions : List GeneratedFile,
      (∃ app, flutter m p = [packageFile p true, modelsFile m] ++ apiFile m ++ m.pages.map (pageFile m)
        ++ functions ++ [appFile m p app]) ∧
      (functions.map (·.names)).Sublist [["lib", "functions.dart"]] :=
    ⟨_, ⟨_, rfl⟩, by split <;> simp [hfunctions]⟩
  obtain ⟨app, hflutter⟩ := hflutter
  have hsub := ((List.Sublist.refl [["pubspec.yaml"], ["lib", "models.dart"],
    ["lib", "main.dart"]]).append (names_apiFile m)).append hlibrary
  have hfiles : ((flutter m p).map (·.names)).Perm
      ([["pubspec.yaml"], ["lib", "models.dart"], ["lib", "main.dart"]]
        ++ (apiFile m).map (·.names) ++ functions.map (·.names)
        ++ (m.folders p .flutter).flatMap Folder.files) := by
    refine List.perm_iff_count.2 fun x => ?_
    simp [hflutter, ↓Code.names_file, packageFile, modelsFile, pageFile, appFile, Function.comp_def,
      hpage, hpackage, hmodels, hmain, CodeModel.folders, Folder.files, List.count_cons]
    omega
  refine Folder.nodup_keys_iff_names hfiles (by simp [CodeModel.folders]) (hsub.nodup (by decide))
    fun x hx => ?_
  have hall := hsub.subset hx
  simp only [List.mem_append, List.mem_cons, List.not_mem_nil, or_false] at hall
  obtain ((rfl | rfl | rfl) | rfl) | rfl := hall <;> simp [CodeModel.folders]

theorem Web.names_sharedFiles : ((sharedFiles m).map (·.names)).Sublist
    [["src", "models.ts"], ["src", "api.ts"], ["src", "functions.ts"]] := by
  have hfixed : (Path.mk "src/models.ts").names = ["src", "models.ts"] ∧
      (Path.mk "src/api.ts").names = ["src", "api.ts"] ∧
      (Path.mk "src/functions.ts").names = ["src", "functions.ts"] := by decide
  unfold sharedFiles
  split <;> split <;> simp [hfixed]

/-- The pages of a web application have a folder of their own. -/
theorem Web.nodup_keys {generated : List GeneratedFile} {folders : List Folder}
    {fixed : List (List String)} (hpages : folders.map (·.path) = [["src", "pages"]])
    (hfiles : (generated.map (·.names)).Perm
      (fixed ++ (sharedFiles m).map (·.names) ++ folders.flatMap Folder.files))
    (hfixed : (fixed ++ [["src", "models.ts"], ["src", "api.ts"], ["src", "functions.ts"]]).Nodup)
    (hapart : ∀ x ∈ fixed, x.dropLast ≠ ["src", "pages"]) :
    (generated.map (·.key)).Nodup ↔ ∀ f ∈ folders, f.names.Nodup := by
  have hsub := (List.Sublist.refl fixed).append (names_sharedFiles m)
  refine Folder.nodup_keys_iff_names hfiles (by simp [hpages]) (hsub.nodup hfixed) fun x hx f hf => ?_
  have hpath : f.path = ["src", "pages"] := by
    have := List.mem_map_of_mem (f := (·.path)) hf
    simpa [hpages] using this
  rw [hpath]
  rcases List.mem_append.1 (hsub.subset hx) with hx | hx
  · exact hapart x hx
  · simp only [List.mem_cons, List.not_mem_nil, or_false] at hx
    obtain rfl | rfl | rfl := hx <;> decide

theorem Web.vue_nodup :
    ((vue m p).map (·.key)).Nodup ↔ ∀ f ∈ m.folders p .vueJs, f.names.Nodup := by
  have hpage : ∀ name, (Path.mk s!"src/pages/{pascal name}.vue").names
      = ["src", "pages"] ++ [pascal name ++ ".vue"] :=
    fun name => Path.names_file (by decide) (slash_not_mem_pascal name) (by decide)
  have hfixed : (Path.mk "package.json").names = ["package.json"] ∧
      (Path.mk "tsconfig.json").names = ["tsconfig.json"] ∧
      (Path.mk "vite.config.ts").names = ["vite.config.ts"] ∧
      (Path.mk "index.html").names = ["index.html"] ∧
      (Path.mk "src/env.d.ts").names = ["src", "env.d.ts"] ∧
      (Path.mk "src/router.ts").names = ["src", "router.ts"] ∧
      (Path.mk "src/App.vue").names = ["src", "App.vue"] ∧
      (Path.mk "src/main.ts").names = ["src", "main.ts"] := by decide
  have hfiles : ((vue m p).map (·.names)).Perm
      ([["package.json"], ["tsconfig.json"], ["vite.config.ts"], ["index.html"], ["src", "env.d.ts"],
          ["src", "router.ts"], ["src", "App.vue"], ["src", "main.ts"]]
        ++ (sharedFiles m).map (·.names) ++ (m.folders p .vueJs).flatMap Folder.files) := by
    refine List.perm_iff_count.2 fun x => ?_
    simp [vue, ↓Code.names_file, JavaScript.packageFile, JavaScript.compilerSettings, bundlerFile,
      indexFile, vueEnvironment, vuePage, vueRouter, Function.comp_def, hpage, hfixed,
      CodeModel.folders, Folder.files, List.count_cons]
    omega
  exact nodup_keys m rfl hfiles (by decide) (by decide)

theorem Web.react_nodup :
    ((react m p).map (·.key)).Nodup ↔ ∀ f ∈ m.folders p .react, f.names.Nodup := by
  have hpage : ∀ name, (Path.mk s!"src/pages/{pascal name}.tsx").names
      = ["src", "pages"] ++ [pascal name ++ ".tsx"] :=
    fun name => Path.names_file (by decide) (slash_not_mem_pascal name) (by decide)
  have hfixed : (Path.mk "package.json").names = ["package.json"] ∧
      (Path.mk "tsconfig.json").names = ["tsconfig.json"] ∧
      (Path.mk "vite.config.ts").names = ["vite.config.ts"] ∧
      (Path.mk "index.html").names = ["index.html"] ∧
      (Path.mk "src/App.tsx").names = ["src", "App.tsx"] ∧
      (Path.mk "src/main.tsx").names = ["src", "main.tsx"] := by decide
  have hfiles : ((react m p).map (·.names)).Perm
      ([["package.json"], ["tsconfig.json"], ["vite.config.ts"], ["index.html"],
          ["src", "App.tsx"], ["src", "main.tsx"]]
        ++ (sharedFiles m).map (·.names) ++ (m.folders p .react).flatMap Folder.files) := by
    refine List.perm_iff_count.2 fun x => ?_
    simp [react, ↓Code.names_file, JavaScript.packageFile, JavaScript.compilerSettings, bundlerFile,
      indexFile, reactPage, reactApp, Function.comp_def, hpage, hfixed, CodeModel.folders,
      Folder.files, List.count_cons]
    omega
  exact nodup_keys m rfl hfiles (by decide) (by decide)

/-! ### Fixed names -/

theorem Python.client_nodup : ((client m p).map (·.key)).Nodup := by
  rw [nodup_keys_iff]
  unfold client apiFile
  split <;> simp [requirementsFile, GeneratedFile.names, Code.file] <;> decide

theorem Rust.client_nodup : ((client m p).map (·.key)).Nodup := by
  rw [nodup_keys_iff]
  unfold client apiFile
  split <;> simp [cargoFile, modelsFile] <;> decide

theorem Rust.axum_nodup : ((axum m p).map (·.key)).Nodup := by
  rw [nodup_keys_iff]
  simp [axum, ↓Code.names_file, cargoFile, modelsFile, mappersFile, routesFile, serverMain]
  decide

theorem Go.gin_nodup : ((gin m p).map (·.key)).Nodup := by
  rw [nodup_keys_iff]
  simp [gin, ↓Code.names_file, moduleFile, modelsFile, mappersFile, controllersFile, mainFile]
  decide

theorem JavaScript.client_nodup (typed : Bool) : ((client typed m p).map (·.key)).Nodup := by
  rw [nodup_keys_iff]
  unfold client packageFiles
  cases typed <;> cases m.clients.isEmpty <;>
    simp only [packageFile, compilerSettings, List.map_append, List.map_cons, List.map_nil,
      Code.names_file, if_true, if_false, Bool.false_eq_true] <;> decide

theorem Dart.client_nodup : ((client m p).map (·.key)).Nodup := by
  rw [nodup_keys_iff]
  have hmain : (Path.mk s!"bin/{packageName p}.dart").names = ["bin"] ++ [packageName p ++ ".dart"] :=
    Path.names_file (by decide) (slash_not_mem_snake _) (by decide)
  have hfixed : (Path.mk "pubspec.yaml").names = ["pubspec.yaml"] ∧
      (Path.mk "lib/models.dart").names = ["lib", "models.dart"] ∧
      (Path.mk "lib/api.dart").names = ["lib", "api.dart"] := by decide
  unfold client apiFile
  split <;> simp [packageFile, modelsFile, hfixed, hmain]

end Target

/-! ## All platforms -/

/-- The files of a generator have different keys exactly if, in every folder with files named after
declarations, the names of these files and of those put beside them are different; and if the file
of the main class, where it is named by the project, is none of them. -/
theorem CodeModel.generate_nodup_iff (m : CodeModel) (p : Project) (platform : Platform) :
    ((m.generate p platform).map (·.key)).Nodup ↔
      (∀ f ∈ m.folders p platform, f.names.Nodup) ∧
        (platform ∈ [Platform.java, .coders, .springBoot] →
          p.mainClassFile ∉ (m.folders p platform).flatMap Folder.files) := by
  have hnever : ∀ {files : List GeneratedFile}, (files.map (·.key)).Nodup → m.folders p platform = [] →
      ((files.map (·.key)).Nodup ↔ ∀ f ∈ m.folders p platform, f.names.Nodup) := fun hfiles hnone =>
    iff_of_true hfiles (by simp [hnone])
  by_cases hmain : platform ∈ [Platform.java, .coders, .springBoot]
  · rw [forall_prop_of_true hmain]
    simp only [List.mem_cons, List.not_mem_nil, or_false] at hmain
    obtain rfl | rfl | rfl := hmain
    · exact Target.Java.client_nodup m p
    · exact Target.Java.client_nodup m p
    · exact Target.Java.springBoot_nodup m p
  · rw [and_iff_left fun h => absurd h hmain]
    cases platform with
    | java | coders | springBoot => simp at hmain
    | cpp => exact Target.Cpp.client_nodup m p
    | cppServer => exact Target.Cpp.server_nodup m p
    | kotlin => exact Target.Kotlin.client_nodup m p
    | cSharp => exact Target.CSharp.client_nodup m p
    | aspNet => exact Target.CSharp.aspNet_nodup m p
    | go => exact Target.Go.client_nodup m p
    | fastApi => exact Target.Python.fastApi_nodup m p
    | express => exact Target.JavaScript.express_nodup m p
    | flutter => exact Target.Dart.flutter_nodup m p
    | vueJs => exact Target.Web.vue_nodup m p
    | react => exact Target.Web.react_nodup m p
    | gin => exact hnever (Target.Go.gin_nodup m p) rfl
    | rust => exact hnever (Target.Rust.client_nodup m p) rfl
    | axum => exact hnever (Target.Rust.axum_nodup m p) rfl
    | python => exact hnever (Target.Python.client_nodup m p) rfl
    | javaScript => exact hnever (Target.JavaScript.client_nodup m p false) rfl
    | typeScript => exact hnever (Target.JavaScript.client_nodup m p true) rfl
    | dart => exact hnever (Target.Dart.client_nodup m p) rfl

/-- A program of one file with this text compiles and lowers without an error, and two of the files that
are made of it have one key. -/
def RepeatsKey (platform : Platform) (text : String) : Prop :=
  let s := ((Entry.text text ⟨"main.jssp"⟩).compile {} (some platform)).2
  let m := s.lower.1.toOption.getD {}
  s.diagnostics.hasErrors = false ∧ s.lower.1.isOk = true ∧
    ¬ ((m.generate { id := "demo", name := "demo" } platform).map (·.key)).Nodup

/-- A name may be that of a file which the generator puts beside the declared ones, and two names that
differ in case and underscores are one class name. Such a file is there twice. -/
theorem CodeModel.generate_repeats_key :
    RepeatsKey .cpp "struct Dto \x7b id int; \x7d" ∧ RepeatsKey .go "api Models \x7b \x7d" ∧
      RepeatsKey .kotlin "api Main \x7b \x7d" ∧
      RepeatsKey .java "struct UserVo \x7b id int; \x7d struct user_vo \x7b name text; \x7d" := by
  unfold RepeatsKey
  refine ⟨?_, ?_, ?_, ?_⟩ <;> rw [Entry.compile_text rfl] <;> decide +kernel

end Scaffold
