import AbsoluteImports.Proofs.Document.Form
import AbsoluteImports.Proofs.Text.Lenient

/-!
# Package names that are no text

A package is named by its directory, and the name of a directory may be any bytes. They are put
into a line as they are. A file in plain UTF-8 is stored as these bytes; with a mark, a byte that
starts no character is stored as the replacement character. `readsBack_exact` says when the next
reader finds the lines that were written: when the name is a text, or when no line took it.
-/

namespace AbsoluteImports

/-! ### Parts of a text -/

namespace Utf8

theorem encode_cons (c : Char) (x : Text) : encode (c :: x) = encodeChar c ++ encode x :=
  List.flatMap_cons

theorem encode_append (x y : Text) : encode (x ++ y) = encode x ++ encode y :=
  List.flatMap_append

theorem encode_injective {x y : Text} (h : encode x = encode y) : x = y := by
  have hread := decode?_encode x
  rw [h, decode?_encode] at hread
  exact (Option.some.inj hread).symm

theorem decodeLenient_encode (text : Text) : decodeLenient (encode text) = text := by
  induction text with
  | nil => exact decodeLenient_nil
  | cons c text ih => rw [encode_cons, decodeLenient_encodeChar, ih]

theorem exists_encode_of_behind {x y : Text} {rest : Bytes} (h : encode x ++ rest = encode y) :
    ∃ z, rest = encode z := by
  induction x generalizing y with
  | nil => exact ⟨y, h⟩
  | cons c x ih =>
    rw [encode_cons, List.append_assoc] at h
    obtain ⟨a, r, k, hbytes, hnext, hrest⟩ := next?_encodeChar c (encode x ++ rest)
    have hread := decode?_encode y
    rw [← h, hbytes, decode?, hnext] at hread
    simp only [hrest] at hread
    obtain ⟨z, hz, -⟩ := Option.map_eq_some_iff.mp hread
    exact ih (encode_of_decode? hz).symm

theorem ne_encode_of_next? {a : UInt8} {r : Bytes} (h : next? (a :: r) = none) (z : Text) :
    a :: r ≠ encode z := by
  intro heq
  have hread := decode?_encode z
  rw [← heq, decode?, h] at hread
  cases hread

/-- What stands before a character of one byte in a text is a text. -/
theorem exists_encode_of_before {name : Bytes} {c : Char} {x y : Text} (hc : c.toNat < 0x80)
    (h : name ++ encode (c :: x) = encode y) : ∃ z, name = encode z := by
  induction y generalizing name with
  | nil =>
    have hnil := (List.append_eq_nil_iff.mp h).2
    rw [encode_cons] at hnil
    exact absurd (List.append_eq_nil_iff.mp hnil).1 (encodeChar_ne_nil c)
  | cons d y ih =>
    rw [encode_cons d] at h
    rcases List.append_eq_append_iff.mp h with ⟨s, hd, hs⟩ | ⟨s, hname, hs⟩
    · rw [encode_cons, encodeChar_of_lt hc, List.singleton_append] at hs
      cases s with
      | nil =>
        rw [List.append_nil] at hd
        exact ⟨[d], by rw [← hd, encode, List.flatMap_singleton]⟩
      | cons b s =>
        -- the byte behind the name is in the character, so that the character is this byte
        obtain ⟨hb, -⟩ := List.cons.inj hs
        have hbyte : b.toNat = c.toNat := by rw [← hb, toNat_toUInt8 (by omega)]
        have hin : b ∈ encodeChar d := by simp [hd]
        rcases toNat_of_mem_encodeChar hin with hsame | hhigh
        · rw [encodeChar_of_lt (by omega)] at hd
          have hlength := congrArg List.length hd
          simp only [List.length_append, List.length_cons, List.length_nil] at hlength
          have hnone : name = [] := List.eq_nil_of_length_eq_zero (by omega)
          exact ⟨[], hnone⟩
        · omega
    · obtain ⟨z, rfl⟩ := ih hs.symm
      exact ⟨d :: z, by rw [hname, encode_cons]⟩

end Utf8

/-! ### Lines -/

namespace ImportLine

variable {l : ImportLine} {name : Bytes} {package line : Text}

def targetBytes (l : ImportLine) (name : Bytes) : Bytes :=
  if l.module.isEmpty then name else name ++ Utf8.encode ('.' :: l.module)

def absoluteBytes (l : ImportLine) (name : Bytes) : Bytes :=
  Utf8.encode (l.indent ++ "from ".toList) ++ l.targetBytes name ++
    Utf8.encode (" import ".toList ++ l.imported ++ l.comment)

def absoluteBytes? (name : Bytes) (line : Text) : Option Bytes := do
  let l ← parse? line
  if l.dots ≠ 1 then none
  let bytes := l.absoluteBytes name
  if bytes = Utf8.encode line then none else some bytes

theorem absoluteBytes_encode (l : ImportLine) (package : Text) :
    l.absoluteBytes (Utf8.encode package) = Utf8.encode (l.absolute package) := by
  have htarget : l.targetBytes (Utf8.encode package) = Utf8.encode (l.target package) := by
    unfold targetBytes target
    split
    · rfl
    · rw [Utf8.encode_append]
  simp only [absoluteBytes, absolute, htarget, Utf8.encode_append, List.append_assoc]

theorem absoluteBytes?_encode (package line : Text) :
    absoluteBytes? (Utf8.encode package) line = (absolute? package line).map Utf8.encode := by
  unfold absoluteBytes? absolute?
  cases parse? line with
  | none => rfl
  | some l =>
    have hsame : Utf8.encode (l.absolute package) = Utf8.encode line ↔ l.absolute package = line :=
      ⟨Utf8.encode_injective, congrArg Utf8.encode⟩
    by_cases hdots : l.dots = 1
    · by_cases heq : l.absolute package = line
      · simp [hdots, absoluteBytes_encode, heq]
      · simp [hdots, absoluteBytes_encode, hsame, heq]
    · simp [hdots]

theorem exists_of_absoluteBytes? {bytes : Bytes} (h : absoluteBytes? name line = some bytes) :
    ∃ l : ImportLine, bytes = l.absoluteBytes name := by
  obtain ⟨l, -, hl⟩ := Option.bind_eq_some_iff.mp h
  split at hl
  · cases hl
  · obtain ⟨-, hbytes⟩ := Option.ite_none_left_eq_some.mp hl
    exact ⟨l, (Option.some.inj hbytes).symm⟩

theorem exists_encode_of_absoluteBytes {y : Text} (h : l.absoluteBytes name = Utf8.encode y) :
    ∃ z, name = Utf8.encode z := by
  rw [absoluteBytes, List.append_assoc] at h
  obtain ⟨y', hy⟩ := Utf8.exists_encode_of_behind h
  have hblank : " import ".toList ++ l.imported ++ l.comment =
      ' ' :: ("import ".toList ++ l.imported ++ l.comment) := rfl
  rw [hblank] at hy
  unfold targetBytes at hy
  split at hy
  · exact Utf8.exists_encode_of_before (by decide) hy
  · rw [List.append_assoc, ← Utf8.encode_append] at hy
    exact Utf8.exists_encode_of_before (by decide) hy

end ImportLine

/-! ### Documents -/

namespace Document

def linesBytes (name : Bytes) (d : Document) : List Bytes :=
  d.lines.map fun line => (ImportLine.absoluteBytes? name line).getD (Utf8.encode line)

def joinedBytes : List Bytes → List Text → Bytes
  | [], _ => []
  | line :: lines, [] => line ++ joinedBytes lines []
  | line :: lines, ending :: endings => line ++ Utf8.encode ending ++ joinedBytes lines endings

/-- What is stored. Behind a mark there are only characters. -/
def contentBytes (name : Bytes) (d : Document) : Bytes :=
  match d.encoding with
  | .utf8 => joinedBytes (d.linesBytes name) d.endings
  | e => Encoding.encode (Utf8.decodeLenient (joinedBytes (d.linesBytes name) d.endings)) e

/-- The next reader finds the lines that were written, with their terminators, in the encoding of
before. -/
def ReadsBack (name : Bytes) (d : Document) : Prop :=
  ∃ d', ofContent (d.contentBytes name) = .ok d' ∧
    d'.lines.map Utf8.encode = d.linesBytes name ∧ d'.endings = d.endings ∧
    d'.encoding = d.encoding

theorem joinedBytes_encode (lines endings : List Text) :
    joinedBytes (lines.map Utf8.encode) endings = Utf8.encode (joined lines endings) := by
  induction lines generalizing endings with
  | nil => rfl
  | cons line lines ih =>
    cases endings with
    | nil => rw [List.map_cons, joinedBytes, joined, ih, Utf8.encode_append]
    | cons ending endings =>
      rw [List.map_cons, joinedBytes, joined, ih, Utf8.encode_append, Utf8.encode_append]

theorem linesBytes_encode (package : Text) (d : Document) :
    d.linesBytes (Utf8.encode package) = (absoluteLines package d.lines).map Utf8.encode := by
  rw [linesBytes, absoluteLines, List.map_map]
  refine List.map_congr_left fun line _ => ?_
  rw [ImportLine.absoluteBytes?_encode, Function.comp_apply, absoluteLine]
  cases ImportLine.absolute? package line with
  | none => rfl
  | some text => rfl

theorem contentBytes_of_lines {name : Bytes} {d : Document} {lines : List Text}
    (h : d.linesBytes name = lines.map Utf8.encode) :
    d.contentBytes name = content { d with lines := lines } := by
  rw [contentBytes, content, text, h, joinedBytes_encode, Utf8.decodeLenient_encode]
  cases d.encoding with
  | utf8 => rfl
  | utf8Mark => rfl
  | utf16 o => rfl

/-- Names that are no text are put into no line that is read again. -/
theorem exists_encode_of_linesBytes {name : Bytes} {d : Document} {lines : List Text}
    (h : lines.map Utf8.encode = d.linesBytes name) {line : Text} (hline : line ∈ d.lines)
    (htaken : ImportLine.absoluteBytes? name line ≠ none) : ∃ p, name = Utf8.encode p := by
  obtain ⟨bytes, hbytes⟩ := Option.ne_none_iff_exists'.mp htaken
  obtain ⟨l, rfl⟩ := ImportLine.exists_of_absoluteBytes? hbytes
  have hmem : l.absoluteBytes name ∈ lines.map Utf8.encode := by
    rw [h]
    exact List.mem_map.mpr ⟨line, hline, by rw [hbytes, Option.getD_some]⟩
  obtain ⟨y, -, hy⟩ := List.mem_map.mp hmem
  exact ImportLine.exists_encode_of_absoluteBytes hy.symm

theorem eq_of_withLines {d d' : Document} {lines : List Text} (h : d.withLines lines = .ok d') :
    d' = { d with lines := lines } := by
  unfold withLines at h
  split at h
  · exact (Except.ok.inj h).symm
  · cases h

theorem lineFeed_not_mem {package : Text} (h : 0x0A ∉ Utf8.encode package) : '\n' ∉ package := by
  intro hmem
  exact h (List.mem_flatMap.mpr ⟨'\n', hmem, by decide⟩)

section Decoded

variable {data : Bytes} {text : Text} {e : Encoding}

theorem ofContent_content (hdecode : Encoding.decode data = .ok (text, e)) :
    ofContent (ofText text e).content = .ok (ofText text e) := by
  have hread : Encoding.decode (Encoding.encode text e) = .ok (text, e) :=
    Encoding.decode_encode_of_decode hdecode rfl
  have hcontent : (ofText text e).content = Encoding.encode text e := by
    rw [content, text_ofText]
    rfl
  rw [ofContent, hcontent, hread]
  rfl

theorem readsBack_of_text (hdecode : Encoding.decode data = .ok (text, e)) {package : Text}
    (hfeed : 0x0A ∉ Utf8.encode package) : (ofText text e).ReadsBack (Utf8.encode package) := by
  obtain ⟨d, hd, hread, hlines, hendings, -, -, hencoding, -⟩ :=
    ofContent_withLines package hdecode (lineFeed_not_mem hfeed)
  refine ⟨d, ?_, ?_, hendings, hencoding⟩
  · rw [contentBytes_of_lines (linesBytes_encode package _), ← eq_of_withLines hd]
    exact hread
  · rw [linesBytes_encode, hlines, absoluteLines]

theorem readsBack_of_none (hdecode : Encoding.decode data = .ok (text, e)) {name : Bytes}
    (hnone : ∀ line ∈ (ofText text e).lines, ImportLine.absoluteBytes? name line = none) :
    (ofText text e).ReadsBack name := by
  have hlines : (ofText text e).linesBytes name = (ofText text e).lines.map Utf8.encode := by
    refine List.map_congr_left fun line hline => ?_
    rw [hnone line hline, Option.getD_none]
  refine ⟨ofText text e, ?_, hlines.symm, rfl, rfl⟩
  rw [contentBytes_of_lines hlines]
  exact ofContent_content hdecode

/-- A document with its imports made absolute is read again as it was written exactly when the name
of the package is a text or stands in none of the lines. In a package that is named by a text the
lines are in their order, each with the terminator that it had, in the encoding and with the mark of
before. -/
theorem readsBack_exact (hdecode : Encoding.decode data = .ok (text, e)) (name : Bytes)
    (hfeed : 0x0A ∉ name) :
    ((ofText text e).ReadsBack name ↔ (∃ package, name = Utf8.encode package) ∨
      ∀ line ∈ (ofText text e).lines, ImportLine.absoluteBytes? name line = none) ∧
    ∀ package, name = Utf8.encode package →
      ∃ d, (ofText text e).withLines (absoluteLines package (ofText text e).lines) = .ok d ∧
        d.content = (ofText text e).contentBytes name ∧ ofContent d.content = .ok d ∧
        d.lines = (ofText text e).lines.map (absoluteLine package) ∧
        d.endings = (ofText text e).endings ∧ d.endings.length = d.lines.length ∧
        (∀ ending ∈ d.endings.dropLast, ending = ['\n'] ∨ ending = ['\r', '\n']) ∧
        d.encoding = e ∧ Encoding.detect d.content = Encoding.detect data ∧
        e.mark <+: data ∧ e.mark <+: d.content := by
  refine ⟨⟨?_, ?_⟩, ?_⟩
  · intro hback
    obtain ⟨d, -, hlines, -, -⟩ := hback
    by_cases htaken : ∃ line ∈ (ofText text e).lines, ImportLine.absoluteBytes? name line ≠ none
    · obtain ⟨line, hline, hsome⟩ := htaken
      exact .inl (exists_encode_of_linesBytes hlines hline hsome)
    · refine .inr fun line hline => Classical.byContradiction fun hsome => ?_
      exact htaken ⟨line, hline, hsome⟩
  · intro hgood
    rcases hgood with ⟨package, rfl⟩ | hnone
    · exact readsBack_of_text hdecode hfeed
    · exact readsBack_of_none hdecode hnone
  · intro package hname
    subst hname
    obtain ⟨d, hd, hrest⟩ := ofContent_withLines package hdecode (lineFeed_not_mem hfeed)
    refine ⟨d, hd, ?_, hrest⟩
    rw [contentBytes_of_lines (linesBytes_encode package _), ← eq_of_withLines hd]

end Decoded

/-- Lines in UTF-16: a surrogate alone and nothing, with different terminators, and then
a relative import without one. -/
def unterminatedFile : Bytes :=
  [0xFE, 0xFF, 0xD8, 0x3D] ++ Utf16.encode .big "\r\n\nfrom . import a".toList

/-- The file is converted in a package whose name has a character of two bytes. -/
theorem readsBack_exact_unterminated :
    ∃ text d, Encoding.decode unterminatedFile = .ok (text, .utf16 .big) ∧
      (ofText text (.utf16 .big)).ReadsBack [0xC3, 0xA9] ∧
      (ofText text (.utf16 .big)).contentBytes [0xC3, 0xA9] = d.content ∧
      ofContent d.content = .ok d ∧
      d.lines = [[Char.ofNat 0xFFFD], [], "from é import a".toList] ∧
      d.endings = [['\r', '\n'], ['\n'], []] := by
  have hdecode : Encoding.decode unterminatedFile =
      .ok (Char.ofNat 0xFFFD :: "\r\n\nfrom . import a".toList, .utf16 .big) := by
    rfl
  have hlines : (ofText (Char.ofNat 0xFFFD :: "\r\n\nfrom . import a".toList)
      (.utf16 .big)).lines.map (absoluteLine ['é']) =
        [[Char.ofNat 0xFFFD], [], "from é import a".toList] := by
    decide
  have hendings : (ofText (Char.ofNat 0xFFFD :: "\r\n\nfrom . import a".toList)
      (.utf16 .big)).endings = [['\r', '\n'], ['\n'], []] := by
    decide
  have hname : [0xC3, 0xA9] = Utf8.encode ['é'] := by decide
  obtain ⟨hback, hnamed⟩ := readsBack_exact hdecode [0xC3, 0xA9] (by decide)
  obtain ⟨d, -, hcontent, hread, hl, he, -⟩ := hnamed ['é'] hname
  exact ⟨_, d, hdecode, hback.mpr (.inl ⟨['é'], hname⟩), hcontent.symm, hread, hl.trans hlines,
    he.trans hendings⟩

/-- A package whose name ends in a byte that is in no text. What is stored in plain UTF-8 is refused
by the next reader, and behind a mark it finds another name. -/
theorem readsBack_broken :
    0x0A ∉ ([0x70, 0xFF] : Bytes) ∧
      Encoding.decode (Utf8.encode "from .a import b\n".toList) =
        .ok ("from .a import b\n".toList, .utf8) ∧
      (ofText "from .a import b\n".toList .utf8).contentBytes [0x70, 0xFF] =
        Utf8.encode "from p".toList ++ 0xFF :: Utf8.encode ".a import b\n".toList ∧
      ofContent (Utf8.encode "from p".toList ++ 0xFF :: Utf8.encode ".a import b\n".toList) =
        .error (.invalid .utf8) ∧
      ¬(ofText "from .a import b\n".toList .utf8).ReadsBack [0x70, 0xFF] ∧
      ¬(ofText "from .a import b\n".toList .utf8Mark).ReadsBack [0x70, 0xFF] := by
  have hname : ∀ p, [0x70, 0xFF] ≠ Utf8.encode p := by
    intro p hp
    have hbehind : Utf8.encode ['p'] ++ [0xFF] = Utf8.encode p := hp
    obtain ⟨z, hz⟩ := Utf8.exists_encode_of_behind hbehind
    exact Utf8.ne_encode_of_next? rfl z hz
  have hback : ∀ e, ¬(ofText "from .a import b\n".toList e).ReadsBack [0x70, 0xFF] := by
    intro e hback
    obtain ⟨d, -, hlines, -, -⟩ := hback
    have hline : "from .a import b".toList ∈ (ofText "from .a import b\n".toList e).lines :=
      List.mem_singleton_self _
    obtain ⟨p, hp⟩ := exists_encode_of_linesBytes hlines hline (by decide)
    exact hname p hp
  have hdecode : Encoding.decode (Encoding.encode "from .a import b\n".toList .utf8) =
      .ok ("from .a import b\n".toList, .utf8) :=
    Encoding.decode_encode fun _ => by decide
  have hnone : Utf8.decode? (Utf8.encode "from p".toList ++
      0xFF :: Utf8.encode ".a import b\n".toList) = none := by
    cases hread : Utf8.decode? (Utf8.encode "from p".toList ++
        0xFF :: Utf8.encode ".a import b\n".toList) with
    | none => rfl
    | some y =>
      obtain ⟨z, hz⟩ := Utf8.exists_encode_of_behind (Utf8.encode_of_decode? hread).symm
      exact absurd hz (Utf8.ne_encode_of_next? rfl z)
  refine ⟨by decide, hdecode, by decide, ?_, hback .utf8, hback .utf8Mark⟩
  have hdetect : Encoding.detect (Utf8.encode "from p".toList ++
      0xFF :: Utf8.encode ".a import b\n".toList) = .utf8 := rfl
  simp only [ofContent, Encoding.decode, hdetect, Encoding.decodeAs?, Encoding.mark,
    List.length_nil, List.drop_zero, hnone]
  rfl

end Document

end AbsoluteImports
