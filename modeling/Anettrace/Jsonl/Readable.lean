import Anettrace.Jsonl.Formats
import Mathlib.Data.List.Forall2

/-!
# What is read back

A file is read if and only if the texts in it that `json_escape` was given are stored in well-formed
bytes, but for their control bytes. Every line is then a record of its own, with the texts without
their control bytes.
-/

namespace Anettrace.Jsonl

open Library Export

/-! ## A line -/

def jsonMember (member : Member) : Json.Member := ⟨member.1.toList, member.2.chars, member.2.value⟩

def lineText (members : List Member) : List Char :=
  Json.writeLine (jsonMember schemaMember) (members.map jsonMember)

/-- The object that a line is read as. -/
def record (members : List Member) : List (List Char × Json.Value) :=
  (schemaMember :: members).map fun member => (member.1.toList, member.2.value)

/-- The texts of arrays are printed with keys that differ. -/
structure Printable (members : List Member) : Prop where
  sound : Sound members
  keyed : Keyed members
  strings : ∀ array ∈ arrays members, IsString array

variable {members : List Member} {member : Member}

theorem mem_texts {array : List UInt8 × Nat} (hmem : member ∈ members)
    (harray : array ∈ member.2.array) :
    array.1 ∈ texts members :=
  List.mem_map_of_mem (List.mem_filterMap.mpr ⟨member, hmem, harray⟩)

theorem sound_schemaMember : schemaMember.2.Sound := isUnescaped_iff.mp rfl

theorem memberBytes_eq (h : member.2.bytes = Utf8.encode member.2.chars) :
    memberBytes member = Utf8.encode (jsonMember member).written := by
  rw [memberBytes, h, ← Utf8.encode_append, Json.Member.written, List.cons_append,
    List.append_assoc]
  rfl

/-- Plain keys need no escape. -/
theorem Keyed.unescaped (h : Keyed members) (hmem : member ∈ schemaMember :: members) :
    ∀ char ∈ member.1.toList, Json.Unescaped char := by
  have hkey : member.1 ∈ "schema" :: members.map Prod.fst := List.mem_map.mpr ⟨member, hmem, rfl⟩
  exact isUnescaped_iff.mp (List.all_eq_true.mp (Bool.and_eq_true_iff.mp h).2 _ hkey)

/-- The keys of a record are distinct, that of the schema included. -/
theorem Keyed.nodup (h : Keyed members) : ((record members).map Prod.fst).Nodup := by
  have hkeys : ("schema" :: members.map Prod.fst).Nodup :=
    of_decide_eq_true (Bool.and_eq_true_iff.mp h).1
  have hmap : (record members).map Prod.fst =
      ("schema" :: members.map Prod.fst).map String.toList := by
    simp only [record, List.map_map, List.map_cons]
    rfl
  rw [hmap]
  exact hkeys.map fun first second heq => String.toList_injective heq

namespace Printable

variable (h : Printable members)
include h

theorem isString (hmem : member ∈ schemaMember :: members) :
    ∀ array ∈ member.2.array, IsString array := by
  rcases List.mem_cons.mp hmem with rfl | hmem
  · nofun
  · exact fun array harray => h.strings array (List.mem_filterMap.mpr ⟨member, hmem, harray⟩)

theorem sound_of_mem (hmem : member ∈ schemaMember :: members) : member.2.Sound := by
  rcases List.mem_cons.mp hmem with rfl | hmem
  · exact sound_schemaMember
  · exact h.sound member hmem

theorem proper (hmem : member ∈ schemaMember :: members) : (jsonMember member).Proper :=
  ⟨h.keyed.unescaped hmem, (h.sound_of_mem hmem).reads⟩

theorem lineBytes_eq (hformed : ∀ text ∈ texts members, WellFormed text) :
    lineBytes members = Utf8.encode (lineText members ++ ['\n']) := by
  have hbytes : ∀ member ∈ members, Utf8.encode [','] ++ memberBytes member =
      Utf8.encode (',' :: (jsonMember member).written) := by
    intro member hmem
    rw [memberBytes_eq ((h.sound member hmem).bytes_eq (h.isString (List.mem_cons_of_mem _ hmem))
      fun array harray =>
      hformed array.1 (mem_texts hmem harray)), ← Utf8.encode_append]
    rfl
  have hmore : members.flatMap (fun member => Utf8.encode [','] ++ memberBytes member) =
      Utf8.encode (Json.writeMore (members.map jsonMember)) := by
    rw [List.flatMap_congr hbytes, Json.writeMore, List.flatMap_map, Utf8.encode,
      List.flatMap_assoc]
    rfl
  rw [lineBytes, hmore, memberBytes_eq rfl, ← Utf8.encode_append, ← Utf8.encode_append,
    ← Utf8.encode_append,
    lineText, Json.writeLine]
  simp

theorem loads_eq : Json.loads (lineText members ++ ['\n']) = some (.object (record members)) := by
  have hkeys : (((schemaMember :: members).map jsonMember).map Json.Member.key).Nodup := by
    have hnodup := h.keyed.nodup
    rw [record, List.map_map] at hnodup
    rw [List.map_map]
    exact hnodup
  have hmore : ∀ member ∈ members.map jsonMember, member.Proper := by
    intro other hother
    obtain ⟨member, hmem, rfl⟩ := List.mem_map.mp hother
    exact h.proper (List.mem_cons_of_mem _ hmem)
  have hblank : ∀ char ∈ ['\n'], Json.isBlank char = true := by
    intro char hchar
    rw [List.mem_singleton.mp hchar]
    rfl
  have hload := Json.loads_writeLine (h.proper List.mem_cons_self) hmore hkeys hblank
  rw [← List.map_cons, List.map_map] at hload
  exact hload

/-- The loop of the readers takes a line. -/
theorem readRecord_eq : readRecord perfettoSchema (lineText members ++ ['\n']) =
    some (record members) := by
  have hschema : (record members).lookup "schema".toList = some (.string perfettoSchema.toList) :=
    List.lookup_cons_self
  rw [readRecord, h.loads_eq]
  dsimp only
  rw [hschema]
  exact if_pos rfl

/-- No control character is in the text of a line. -/
theorem lineText_printed {char : Char} (hmem : char ∈ lineText members) : 0x20 ≤ char.toNat := by
  have hwritten : ∀ member ∈ schemaMember :: members,
      ∀ char ∈ (jsonMember member).written, 0x20 ≤ char.toNat := by
    intro member hmember char hchar
    rcases List.mem_cons.mp hchar with rfl | hchar
    · decide
    rcases List.mem_append.mp hchar with hkey | hchar
    · exact (h.keyed.unescaped hmember char hkey).2.2
    rcases List.mem_cons.mp hchar with rfl | hchar
    · decide
    rcases List.mem_cons.mp hchar with rfl | hchar
    · decide
    · exact (h.sound_of_mem hmember).printed hchar
  rcases List.mem_cons.mp hmem with rfl | hmem
  · decide
  rcases List.mem_append.mp hmem with hfirst | hmem
  · exact hwritten schemaMember List.mem_cons_self char hfirst
  rcases List.mem_append.mp hmem with hmore | hlast
  · obtain ⟨other, hother, hchar⟩ := List.mem_flatMap.mp hmore
    obtain ⟨member, hmember, rfl⟩ := List.mem_map.mp hother
    rcases List.mem_cons.mp hchar with rfl | hchar
    · decide
    · exact hwritten member (List.mem_cons_of_mem _ hmember) char hchar
  · rw [List.mem_singleton.mp hlast]
    decide

/-- What the bytes of a line hold tells whether the texts in them are well formed. -/
theorem wellFormed {chars : List Char} (hwithin : lineBytes members <:+: Utf8.encode chars) :
    ∀ text ∈ texts members, WellFormed text := by
  intro text htext
  obtain ⟨array, hmem, rfl⟩ := List.mem_map.mp htext
  obtain ⟨member, hmem, harray⟩ := List.mem_filterMap.mp hmem
  refine (h.sound member hmem).wellFormed (h.isString (List.mem_cons_of_mem _ hmem))
    (List.IsInfix.trans ?_ hwithin) array harray
  have hmember : member.2.bytes <:+: members.flatMap fun member =>
      Utf8.encode [','] ++ memberBytes member := by
    refine List.IsInfix.trans ?_ (List.infix_of_mem_flatten (List.mem_map_of_mem hmem))
    exact ((List.suffix_append _ _).trans (List.suffix_append _ _)).isInfix
  exact (hmember.trans (List.prefix_append _ _).isInfix).trans
    ((List.suffix_append _ _).trans (List.suffix_append _ _)).isInfix

/-- A line holds no control byte but the newline at its end. -/
theorem lineBytes_single : ∃ front, lineBytes members = front ++ [10] ∧
    ∀ byte ∈ front, 0x20 ≤ byte := by
  have hmember : ∀ member ∈ schemaMember :: members, ∀ byte ∈ memberBytes member, 0x20 ≤ byte := by
    intro member hmem byte hbyte
    rcases List.mem_append.mp hbyte with hkey | hfield
    · refine encode_printed (fun char hchar => ?_) byte hkey
      rcases List.mem_cons.mp hchar with rfl | hchar
      · decide
      rcases List.mem_append.mp hchar with hchar | hchar
      · exact (h.keyed.unescaped hmem char hchar).2.2
      · exact of_decide_eq_true (List.all_eq_true.mp
          (rfl : ['"', ':'].all (fun char => decide (0x20 ≤ char.toNat)) = true) char hchar)
    · exact (h.sound_of_mem hmem).bytes_printed (h.isString hmem) byte hfield
  refine ⟨Utf8.encode ['{'] ++ (memberBytes schemaMember ++
    (members.flatMap (fun member => Utf8.encode [','] ++ memberBytes member) ++ Utf8.encode ['}'])),
      ?_, ?_⟩
  · simp only [lineBytes, List.append_assoc]
    rfl
  · intro byte hbyte
    have hsign {char : Char} (hchar : 0x20 ≤ char.toNat) (hmem : byte ∈ Utf8.encode [char]) :
        0x20 ≤ byte :=
      encode_printed (fun other hother => List.mem_singleton.mp hother ▸ hchar) byte hmem
    rcases List.mem_append.mp hbyte with hbrace | hbyte
    · exact hsign (by decide) hbrace
    rcases List.mem_append.mp hbyte with hfirst | hbyte
    · exact hmember schemaMember List.mem_cons_self byte hfirst
    rcases List.mem_append.mp hbyte with hmore | hbrace
    · obtain ⟨member, hmem, hbyte⟩ := List.mem_flatMap.mp hmore
      rcases List.mem_append.mp hbyte with hcomma | hbyte
      · exact hsign (by decide) hcomma
      · exact hmember member (List.mem_cons_of_mem _ hmem) byte hbyte
    · exact hsign (by decide) hbrace

end Printable

/-! ## The lines of a file -/

/-- A text without `\r` has the newlines that it is written with. -/
theorem newlines_eq {text : List Char} (h : '\r' ∉ text) : newlines text = text := by
  unfold newlines
  induction text with
  | nil => rfl
  | cons char rest ih =>
      rw [List.mem_cons, not_or] at h
      rw [newlinesFrom, if_neg (Ne.symm h.1), if_neg (fun hnew => Bool.noConfusion hnew.2), ih h.2]

/-- A line ends at its line feed. -/
theorem lines_append {text : List Char} (h : '\n' ∉ text) (rest : List Char) :
    lines (text ++ '\n' :: rest) = (text ++ ['\n']) :: lines rest := by
  induction text with
  | nil => exact if_pos rfl
  | cons char more ih =>
      rw [List.mem_cons, not_or] at h
      rw [List.cons_append, lines, if_neg (Ne.symm h.1), ih h.2]
      rfl

/-- Texts with a newline behind each are the lines of the text that they are put together to. -/
theorem lines_flatMap {texts : List (List Char)} (h : ∀ text ∈ texts, '\n' ∉ text) :
    lines (texts.flatMap fun text => text ++ ['\n']) = texts.map fun text => text ++ ['\n'] := by
  induction texts with
  | nil => rfl
  | cons text rest ih =>
      obtain ⟨htext, hrest⟩ := List.forall_mem_cons.mp h
      rw [List.flatMap_cons, List.append_assoc, List.singleton_append, lines_append htext, ih hrest,
        List.map_cons]

/-- Reading item by item succeeds if it succeeds on each item. -/
theorem mapM_some {α β : Type} {read : α → Option β} {result : α → β} {items : List α}
    (h : ∀ item ∈ items, read item = some (result item)) :
    items.mapM read = some (items.map result) := by
  induction items with
  | nil => rfl
  | cons item rest ih =>
      obtain ⟨hitem, hrest⟩ := List.forall_mem_cons.mp h
      rw [List.mapM_cons, hitem, ih hrest]
      rfl

/-- Every line of a file is read as its object. -/
theorem readRecords_eq {file : List (List Member)} (hfile : ∀ members ∈ file, Printable members)
    (hformed : ∀ members ∈ file, ∀ text ∈ texts members, WellFormed text) :
    readRecords perfettoSchema (file.flatMap lineBytes) = some (file.map record) := by
  have hbytes : file.flatMap lineBytes =
      Utf8.encode ((file.map lineText).flatMap fun text => text ++ ['\n']) := by
    have hline : ∀ members ∈ file, lineBytes members = Utf8.encode (lineText members ++ ['\n']) :=
      fun members hmem => (hfile members hmem).lineBytes_eq (hformed members hmem)
    rw [List.flatMap_congr hline, List.flatMap_map, Utf8.encode, List.flatMap_assoc]
    rfl
  have hprinted : ∀ text ∈ file.map lineText, ∀ char ∈ text, 0x20 ≤ char.toNat := by
    intro text htext char hchar
    obtain ⟨members, hmem, rfl⟩ := List.mem_map.mp htext
    exact (hfile members hmem).lineText_printed hchar
  have hreturn : '\r' ∉ (file.map lineText).flatMap fun text => text ++ ['\n'] := by
    intro hmem
    obtain ⟨text, htext, hchar⟩ := List.mem_flatMap.mp hmem
    rcases List.mem_append.mp hchar with hchar | hchar
    · exact absurd (hprinted text htext _ hchar) (by decide)
    · exact absurd (List.mem_singleton.mp hchar) (by decide)
  have hnewline : ∀ text ∈ file.map lineText, '\n' ∉ text :=
    fun text htext hmem => absurd (hprinted text htext _ hmem) (by decide)
  have hfilter : ((file.map lineText).map fun text => text ++ ['\n']).filter
      (fun line => !line.all isSpace) =
      (file.map lineText).map fun text => text ++ ['\n'] := by
    refine List.filter_eq_self.mpr fun line hline => ?_
    obtain ⟨text, htext, rfl⟩ := List.mem_map.mp hline
    obtain ⟨members, -, rfl⟩ := List.mem_map.mp htext
    have hbrace : isSpace '{' = false := by decide
    simp [lineText, Json.writeLine, hbrace]
  have hread : ((file.map lineText).map fun text => text ++ ['\n']).mapM
      (readRecord perfettoSchema) =
      some (file.map record) := by
    rw [List.map_map, List.mapM_map]
    refine mapM_some fun members hmem => ?_
    rw [Function.comp_apply, Function.comp_apply, (hfile members hmem).readRecord_eq]
  rw [readRecords, hbytes, Utf8.decode_encode, Option.bind_eq_bind, Option.bind_some,
    newlines_eq hreturn,
    lines_flatMap hnewline, hfilter, hread]

theorem wellFormed_of_read {file : List (List Member)} (hfile : ∀ members ∈ file, Printable members)
    (hread : (readRecords perfettoSchema (file.flatMap lineBytes)).isSome = true) :
    ∀ members ∈ file, ∀ text ∈ texts members, WellFormed text := by
  obtain ⟨records, hrecords⟩ := Option.isSome_iff_exists.mp hread
  obtain ⟨chars, hchars, -⟩ := Option.bind_eq_some_iff.mp hrecords
  intro members hmem
  have hwithin : lineBytes members <:+: file.flatMap lineBytes :=
    List.infix_of_mem_flatten (List.mem_map_of_mem hmem)
  rw [← Utf8.decode_eq_some_iff.mp hchars] at hwithin
  exact (hfile members hmem).wellFormed hwithin

/-! ## The lines of the exporter -/

/-- The texts of a line end within their arrays, and what it takes from the table of the traced
functions needs no escape. -/
structure Line.Proper (inetNtop : Address → List Char) (line : Line) : Prop where
  strings : ∀ array ∈ arrays (line.members inetNtop), IsString array
  names : ∀ name ∈ line.names, NameUnescaped name

theorem Line.Proper.printable {inetNtop : Address → List Char} {line : Line}
    (h : line.Proper inetNtop) (hntop : ∀ address, isUnescaped (inetNtop address) = true) :
    Printable (line.members inetNtop) :=
  ⟨Line.sound hntop h.names, line.keyed inetNtop, h.strings⟩

/-- Every text of a line that `json_escape` is given is stored in well-formed bytes, but for its
control bytes. -/
def Line.WellFormed (inetNtop : Address → List Char) (line : Line) : Prop :=
  ∀ text ∈ texts (line.members inetNtop), Jsonl.WellFormed text

/-- A line is a line of its own: there is a newline at its end, and no other control byte. -/
def IsSingleLine (bytes : List UInt8) : Prop :=
  ∃ front, bytes = front ++ [10] ∧ ∀ byte ∈ front, 0x20 ≤ byte

/-- A record holds the texts of a line without their control bytes. -/
def HoldsTexts (members : List Member) (record : List (List Char × Json.Value)) : Prop :=
  ∀ member ∈ members, ∀ array ∈ member.2.array, ∃ string,
    record.lookup member.1.toList = some (.string string) ∧ Utf8.encode string =
      withoutControls array.1

/-- Every record of a file is on a line of its own, and is read back with its texts. -/
structure Readable (inetNtop : Address → List Char) (file : List Line) : Prop where
  single : ∀ line ∈ file, IsSingleLine (line.bytes inetNtop)
  read : ∃ records, readRecords perfettoSchema (fileBytes inetNtop file) = some records ∧
    List.Forall₂ (fun line record => HoldsTexts (line.members inetNtop) record) file records

/-- The object of a line holds its texts. -/
theorem Printable.holdsTexts {members : List Member} (h : Printable members)
    (hformed : ∀ text ∈ texts members, WellFormed text) : HoldsTexts members (record members) := by
  intro member hmem array harray
  refine ⟨readBack array.1, ?_, (hformed array.1 (mem_texts hmem harray)).encode_readBack⟩
  have hvalue : member.2.value = .string (readBack array.1) := by
    obtain ⟨key, field⟩ := member
    cases field with
    | escaped text source dest =>
        obtain rfl : (text, source) = array := Option.some.inj harray
        rfl
    | plain | unsigned | signed | flag => exact absurd harray nofun
  rw [← hvalue]
  have hpair : (member.1.toList, member.2.value) ∈ record members :=
    List.mem_map.mpr ⟨member, List.mem_cons_of_mem _ hmem, rfl⟩
  exact Json.lookup_of_mem h.keyed.nodup hpair

section

variable {inetNtop : Address → List Char} (hntop : ∀ address, isUnescaped (inetNtop address) = true)
  {file : List Line} (hfile : ∀ line ∈ file, line.Proper inetNtop)
include hntop hfile

theorem printable_of_mem : ∀ members ∈ file.map (Line.members inetNtop), Printable members := by
  intro members hmem
  obtain ⟨line, hline, rfl⟩ := List.mem_map.mp hmem
  exact (hfile line hline).printable hntop

/-- What the readers make of a file with well-formed texts. -/
theorem readRecords_fileBytes (hformed : ∀ line ∈ file, line.WellFormed inetNtop) :
    readRecords perfettoSchema (fileBytes inetNtop file) =
      some (file.map fun line => record (line.members inetNtop)) := by
  have hmembers : ∀ members ∈ file.map (Line.members inetNtop), ∀ text ∈ texts members,
      WellFormed text := by
    intro members hmem
    obtain ⟨line, hline, rfl⟩ := List.mem_map.mp hmem
    exact hformed line hline
  have hread := readRecords_eq (printable_of_mem hntop hfile) hmembers
  rwa [List.flatMap_map, List.map_map] at hread

theorem wellFormed_of_fileBytes
    (hread : (readRecords perfettoSchema (fileBytes inetNtop file)).isSome = true) :
    ∀ line ∈ file, line.WellFormed inetNtop := by
  have hbytes : fileBytes inetNtop file = (file.map (Line.members inetNtop)).flatMap lineBytes := by
    rw [List.flatMap_map]
    rfl
  rw [hbytes] at hread
  intro line hline
  exact wellFormed_of_read (printable_of_mem hntop hfile) hread _ (List.mem_map_of_mem hline)

theorem readable_of_wellFormed (hformed : ∀ line ∈ file, line.WellFormed inetNtop) :
    Readable inetNtop file where
  single line hline := ((hfile line hline).printable hntop).lineBytes_single
  read := by
    refine ⟨_, readRecords_fileBytes hntop hfile hformed, List.forall₂_map_right_iff.mpr ?_⟩
    exact List.forall₂_same.mpr fun line hline =>
      ((hfile line hline).printable hntop).holdsTexts (hformed line hline)

/-- The readers take a file if and only if every text in it is well formed, and then every record is
read back with its texts. -/
theorem file_readable_iff :
    ((readRecords perfettoSchema (fileBytes inetNtop file)).isSome = true ↔
      ∀ line ∈ file, line.WellFormed inetNtop) ∧
    (Readable inetNtop file ↔ ∀ line ∈ file, line.WellFormed inetNtop) := by
  refine ⟨⟨wellFormed_of_fileBytes hntop hfile, fun hformed => ?_⟩, ⟨fun hreadable => ?_, ?_⟩⟩
  · rw [readRecords_fileBytes hntop hfile hformed]
    rfl
  · obtain ⟨records, hrecords, -⟩ := hreadable.read
    exact wellFormed_of_fileBytes hntop hfile (Option.isSome_iff_exists.mpr ⟨records, hrecords⟩)
  · exact readable_of_wellFormed hntop hfile

end

/-! ## The names of two tasks -/

/-- The text of an IPv4 address. -/
def dotted : Address → List Char
  | .inet bytes => (bytes.flatMap fun byte => '.' :: decimal byte.toNat).drop 1
  | _ => []

/-- Dotted addresses need no escape. -/
theorem isUnescaped_dotted (address : Address) : isUnescaped (dotted address) = true := by
  cases address with
  | inet bytes =>
      refine isUnescaped_iff.mpr fun char hchar => ?_
      obtain ⟨byte, -, hchar⟩ := List.mem_flatMap.mp (List.mem_of_mem_drop hchar)
      rcases List.mem_cons.mp hchar with rfl | hchar
      · decide
      · exact isUnescaped_iff.mp (isUnescaped_decimal byte.toNat) char hchar
  | none | inet6 => rfl

/-- A flow of a task whose name has a quote, a backslash, a newline and letters of two bytes. -/
def namedFlow : Line :=
  .flowStart
    { FlowState.fresh 5 with
      protocol := ipprotoTcp
      displayIndex := 1
      localAddr := .inet [10, 0, 0, 1]
      localPort := 40000
      remoteAddr := .inet [10, 0, 0, 2]
      remotePort := 443
      task := Utf8.encode "d\"é\\ü\nmon".toList }

theorem namedFlow_proper : namedFlow.Proper dotted where
  strings := by
    have harrays : arrays (namedFlow.members dotted) = [(Utf8.encode "d\"é\\ü\nmon".toList, 16)] :=
      rfl
    rw [harrays, List.forall_mem_singleton]
    decide
  names := nofun

/-- The name is read back without the newline. -/
theorem namedFlow_readable :
    (readRecords perfettoSchema (fileBytes dotted [namedFlow])).isSome = true ∧
      Readable dotted [namedFlow] := by
  have hfile : ∀ line ∈ [namedFlow], line.Proper dotted :=
    List.forall_mem_singleton.mpr namedFlow_proper
  have hformed : ∀ line ∈ [namedFlow], line.WellFormed dotted := by
    rw [List.forall_mem_singleton]
    have htexts : texts (namedFlow.members dotted) = [Utf8.encode "d\"é\\ü\nmon".toList] := rfl
    rw [Line.WellFormed, htexts, List.forall_mem_singleton]
    decide +kernel
  obtain ⟨hread, hreadable⟩ := file_readable_iff isUnescaped_dotted hfile
  exact ⟨hread.mpr hformed, hreadable.mpr hformed⟩

/-- The name of a task, as far as the kernel keeps it: 15 bytes, which end within a character. -/
def cutTask : List UInt8 := (Utf8.encode "QQ浏览器下载".toList).take 15

/-- A line whose task name is cut within a character. -/
def cutName : Line :=
  .socketCreate
    { startTs := 1
      ts := 2
      socketId := 3
      cpu := 0
      tid := 7
      tgid := 7
      uid := 10187
      task := cutTask }

theorem cutName_proper : cutName.Proper dotted where
  strings := by
    have harrays : arrays (cutName.members dotted) = [(cutTask, 16)] := rfl
    rw [harrays, List.forall_mem_singleton]
    decide +kernel
  names := nofun

/-- No reader takes a file with this name. -/
theorem cutName_unreadable :
    (∀ line ∈ [cutName], line.Proper dotted) ∧
      readRecords perfettoSchema (fileBytes dotted [cutName]) = none ∧
      ¬ Readable dotted [cutName] := by
  have hfile : ∀ line ∈ [cutName], line.Proper dotted :=
    List.forall_mem_singleton.mpr cutName_proper
  have hread : ¬ (readRecords perfettoSchema (fileBytes dotted [cutName])).isSome = true := by
    intro hread
    have hformed :=
      wellFormed_of_fileBytes isUnescaped_dotted hfile hread cutName List.mem_cons_self
    exact absurd (hformed cutTask List.mem_cons_self) (by decide +kernel)
  have hnone : readRecords perfettoSchema (fileBytes dotted [cutName]) = none :=
    Option.not_isSome_iff_eq_none.mp hread
  refine ⟨hfile, hnone, fun hreadable => ?_⟩
  obtain ⟨records, hrecords, -⟩ := hreadable.read
  rw [hnone] at hrecords
  cases hrecords

end Anettrace.Jsonl
