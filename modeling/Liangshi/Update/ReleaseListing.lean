import Liangshi.Ordered.Mirror
import Liangshi.Wire.BigEndian
import Mathlib.Data.String.Basic

/-!
# The list of a release

`update_json_generator` goes through the folder of a release and writes `all.json`, the path and the md5
of every file in it; the client reads it back as a map (`ParseJsonFile`).  Joined to its folder's path by
a slash, the name of an entry can be told from the path again, as names have no slash: no two files have
one path, and the map that is read back has the md5 of each file of the folder and nothing else
(`find_parseJson_allJson`).

Qt works out the md5 and the text of a JSON document.
-/

namespace Liangshi

open Wire Ordered

/-- A JSON object, as far as its members are strings. -/
abbrev JsonObject := OrderedMap String String

/-- `QJsonDocument` of an array of objects, and `QCryptographicHash` with `Md5` in hexadecimal.  What is
read of anything but an array is the empty array, and of an item that is no object the empty object;
`none` is a parse error. -/
structure UpdateToolkit where
  md5 : Bytes → String
  toJson : List JsonObject → Bytes
  fromJson : Bytes → Option (List JsonObject)

/-- The entries of a folder, in the order they are listed. -/
inductive Folder where
  | empty
  | file (name : String) (content : Bytes) (others : Folder)
  | folder (name : String) (inner others : Folder)

namespace Folder

/-- The names of the entries. -/
def names : Folder → List String
  | empty => []
  | file name _ others | folder name _ others => name :: others.names

/-- Names have no slash, and no two entries of a folder have one name. -/
def WellNamed : Folder → Prop
  | empty => True
  | file name _ others => '/' ∉ name.toList ∧ name ∉ others.names ∧ others.WellNamed
  | folder name inner others =>
    '/' ∉ name.toList ∧ name ∉ others.names ∧ inner.WellNamed ∧ others.WellNamed

/-- The content of the file at a path, where the folder is at a prefix. -/
def contentAt (pathPrefix : String) : Folder → String → Option Bytes
  | empty, _ => none
  | file name content others, path =>
    if pathPrefix ++ "/" ++ name = path then some content else others.contentAt pathPrefix path
  | folder name inner others, path =>
    (inner.contentAt (pathPrefix ++ "/" ++ name) path).or (others.contentAt pathPrefix path)

end Folder

/-! ## Writing and reading the list -/

/-- The object of a file. -/
def fileJson (name md5 : String) : JsonObject := (OrderedMap.empty.insert "name" name).insert "md5" md5

/-- `GetFolderFileJson`. -/
def getFolderFileJson (k : UpdateToolkit) : Folder → String → List JsonObject
  | .empty, _ => []
  | .file name content others, pathPrefix =>
    fileJson (pathPrefix ++ "/" ++ name) (k.md5 content) :: getFolderFileJson k others pathPrefix
  | .folder name inner others, pathPrefix =>
    getFolderFileJson k inner (pathPrefix ++ "/" ++ name) ++ getFolderFileJson k others pathPrefix

/-- What `main` of `update_json_generator` writes. -/
def allJson (k : UpdateToolkit) (folder : Folder) : Bytes := k.toJson (getFolderFileJson k folder "")

/-- The loop of `ParseJsonFile`. -/
def parseObjects (array : List JsonObject) : OrderedMap String String :=
  array.foldl (fun results obj =>
    results.insert ((obj.find "name").getD "") ((obj.find "md5").getD "")) .empty

/-- `ParseJsonFile`, given the content of the file. -/
def parseJson (k : UpdateToolkit) (content : Bytes) : OrderedMap String String :=
  match k.fromJson content with
  | none => .empty
  | some array => parseObjects array

/-- `ParseJsonFile` of a file in a folder; a file that is not there is read as if it were empty. -/
def parseJsonFile (k : UpdateToolkit) (files : OrderedMap String Bytes) (path : String) :
    OrderedMap String String := parseJson k ((files.find path).getD [])

/-! ## Paths -/

/-- A path leads through an entry of the folder at a prefix. -/
def Through (pathPrefix name path : String) : Prop :=
  ∃ rest : List Char, path.toList = pathPrefix.toList ++ '/' :: name.toList ++ rest ∧
    rest.head? ∈ [none, some '/']

/-- The path of a file leads through its folder to its name. -/
lemma through_self (pathPrefix name : String) : Through pathPrefix name (pathPrefix ++ "/" ++ name) :=
  ⟨[], by simp, by simp⟩

/-- What leads through an entry of an inner folder leads through the inner folder. -/
lemma Through.outer {pathPrefix name inner path : String}
    (h : Through (pathPrefix ++ "/" ++ name) inner path) : Through pathPrefix name path := by
  obtain ⟨rest, hpath, -⟩ := h
  exact ⟨'/' :: inner.toList ++ rest, by simp [hpath], by simp⟩

/-- The entry a path leads through is found in the path: it goes up to the next slash. -/
lemma Through.name_eq {pathPrefix name name' path : String} (h : Through pathPrefix name path)
    (h' : Through pathPrefix name' path) (hname : '/' ∉ name.toList) (hname' : '/' ∉ name'.toList) :
    name = name' := by
  have htake : ∀ (name : String) (rest : List Char), '/' ∉ name.toList →
      rest.head? ∈ [none, some '/'] →
        (name.toList ++ rest).takeWhile (fun c => c != '/') = name.toList := by
    intro name rest hname hrest
    rw [List.takeWhile_append_of_pos (by
      intro c hc
      simpa using fun heq : c = '/' => hname (heq ▸ hc))]
    cases rest with
    | nil => simp
    | cons c rest =>
      obtain rfl : c = '/' := by simpa using hrest
      simp
  obtain ⟨rest, hpath, hrest⟩ := h
  obtain ⟨rest', hpath', hrest'⟩ := h'
  rw [hpath, List.append_assoc, List.append_assoc, List.append_cancel_left_eq, List.cons_append,
    List.cons_append, List.cons_inj_right] at hpath'
  have hnames := congrArg (List.takeWhile fun c => c != '/') hpath'
  rw [htake name rest hname hrest, htake name' rest' hname' hrest'] at hnames
  exact String.toList_injective hnames

/-! ## The list tells the folder -/

/-- The entry of the map that an object stands for. -/
def jsonEntry (obj : JsonObject) : String × String :=
  ((obj.find "name").getD "", (obj.find "md5").getD "")

/-- The entry of a file is read back. -/
@[simp] lemma jsonEntry_fileJson (name md5 : String) : jsonEntry (fileJson name md5) = (name, md5) := by
  simp [jsonEntry, fileJson]

/-- A list is read entry by entry. -/
lemma parseObjects_eq (array : List JsonObject) :
    parseObjects array = OrderedMap.empty.insertAll (array.map jsonEntry) := by
  rw [parseObjects, OrderedMap.insertAll, List.foldl_map]
  rfl

/-- What is listed leads through an entry of the folder. -/
lemma through_of_mem (k : UpdateToolkit) {folder : Folder} {pathPrefix : String} {e : String × String}
    (h : e ∈ (getFolderFileJson k folder pathPrefix).map jsonEntry) :
    ∃ name ∈ folder.names, Through pathPrefix name e.1 := by
  induction folder generalizing pathPrefix with
  | empty => cases h
  | file name content others ih =>
    rw [getFolderFileJson, List.map_cons, jsonEntry_fileJson] at h
    obtain rfl | h := List.mem_cons.mp h
    · exact ⟨name, List.mem_cons_self, through_self pathPrefix name⟩
    · obtain ⟨name', hname', hthrough⟩ := ih h
      exact ⟨name', List.mem_cons_of_mem name hname', hthrough⟩
  | folder name inner others ihinner ihothers =>
    rw [getFolderFileJson, List.map_append] at h
    obtain h | h := List.mem_append.mp h
    · obtain ⟨name', -, hthrough⟩ := ihinner h
      exact ⟨name, List.mem_cons_self, hthrough.outer⟩
    · obtain ⟨name', hname', hthrough⟩ := ihothers h
      exact ⟨name', List.mem_cons_of_mem name hname', hthrough⟩

/-- The names of a well-named folder have no slash. -/
lemma Folder.WellNamed.no_slash {folder : Folder} (h : folder.WellNamed) :
    ∀ name ∈ folder.names, '/' ∉ name.toList := by
  induction folder with
  | empty => exact fun name hname => by cases hname
  | file name content others ih =>
    intro name' hname'
    obtain rfl | hname' := List.mem_cons.mp hname'
    · exact h.1
    · exact ih h.2.2 name' hname'
  | folder name inner others _ ih =>
    intro name' hname'
    obtain rfl | hname' := List.mem_cons.mp hname'
    · exact h.1
    · exact ih h.2.2.2 name' hname'

/-- An entry behind another of the folder is listed under another path. -/
lemma not_through_others (k : UpdateToolkit) {name pathPrefix : String} {others : Folder}
    (hslash : '/' ∉ name.toList) (hname : name ∉ others.names) (hothers : others.WellNamed)
    {e : String × String} (he : e ∈ (getFolderFileJson k others pathPrefix).map jsonEntry) :
    ¬ Through pathPrefix name e.1 := by
  intro hthrough
  obtain ⟨name', hname', hthrough'⟩ := through_of_mem k he
  obtain rfl := hthrough.name_eq hthrough' hslash (hothers.no_slash name' hname')
  exact hname hname'

/-- No path is listed twice. -/
lemma nodup_paths (k : UpdateToolkit) {folder : Folder} (h : folder.WellNamed) (pathPrefix : String) :
    (((getFolderFileJson k folder pathPrefix).map jsonEntry).map Prod.fst).Nodup := by
  induction folder generalizing pathPrefix with
  | empty => exact List.nodup_nil
  | file name content others ih =>
    obtain ⟨hslash, hname, hothers⟩ := h
    rw [getFolderFileJson, List.map_cons, jsonEntry_fileJson, List.map_cons, List.nodup_cons]
    refine ⟨fun hmem => ?_, ih hothers pathPrefix⟩
    obtain ⟨e, he, hpath⟩ := List.mem_map.mp hmem
    refine not_through_others k hslash hname hothers he ?_
    rw [hpath]
    exact through_self pathPrefix name
  | folder name inner others ihinner ihothers =>
    obtain ⟨hslash, hname, hinner, hothers⟩ := h
    rw [getFolderFileJson, List.map_append, List.map_append, List.nodup_append]
    refine ⟨ihinner hinner _, ihothers hothers _, ?_⟩
    intro path hpath path' hpath' heq
    obtain ⟨e, he, rfl⟩ := List.mem_map.mp hpath
    obtain ⟨e', he', rfl⟩ := List.mem_map.mp hpath'
    obtain ⟨name', -, hthrough⟩ := through_of_mem k he
    refine not_through_others k hslash hname hothers he' ?_
    rw [← heq]
    exact hthrough.outer

/-- A path is listed with the md5 of the file at it. -/
lemma findEntry_listed (k : UpdateToolkit) (folder : Folder) (pathPrefix path : String) :
    OrderedMap.findEntry path ((getFolderFileJson k folder pathPrefix).map jsonEntry) =
      (folder.contentAt pathPrefix path).map k.md5 := by
  induction folder generalizing pathPrefix with
  | empty => rfl
  | file name content others ih =>
    rw [getFolderFileJson, List.map_cons, jsonEntry_fileJson, OrderedMap.findEntry, Folder.contentAt, ih]
    split_ifs <;> rfl
  | folder name inner others ihinner ihothers =>
    rw [getFolderFileJson, List.map_append, OrderedMap.findEntry_append, ihinner, ihothers,
      Folder.contentAt]
    cases inner.contentAt (pathPrefix ++ "/" ++ name) path <;> rfl

/-- The text of a list can be read back. -/
def UpdateToolkit.Reads (k : UpdateToolkit) (array : List JsonObject) : Prop :=
  k.fromJson (k.toJson array) = some array

/-- What is read back of `all.json` is the md5 of every file of the folder. -/
lemma find_parseJson_allJson {k : UpdateToolkit} {folder : Folder} (h : folder.WellNamed)
    (hreads : k.Reads (getFolderFileJson k folder "")) (path : String) :
    (parseJson k (allJson k folder)).find path = (folder.contentAt "" path).map k.md5 := by
  rw [parseJson, allJson, hreads]
  dsimp only
  rw [parseObjects_eq, OrderedMap.find_insertAll, OrderedMap.findEntry_reverse (nodup_paths k h ""),
    findEntry_listed, OrderedMap.find_empty, Option.or_none]

end Liangshi
