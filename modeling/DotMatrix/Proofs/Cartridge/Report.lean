import DotMatrix.Proofs.Cartridge.Title
import DotMatrix.Proofs.Text.Hex
import DotMatrix.Session

namespace DotMatrix

namespace Report

def content (entry : String × String) : String :=
  let label := entry.1 ++ ":"
  label ++ String.ofList (.replicate (labelWidth - label.length) ' ') ++ entry.2

def labels : List String :=
  ["Title", "Type", "ROM size", "RAM size", "CGB flag", "SGB flag", "Destination", "Licensee",
    "Version", "Logo", "Header checksum", "Global checksum"]

def Labelled (labels lines : List String) : Prop :=
  List.Forall₂ (fun label line => (label ++ ":").toList <+: line.toList) labels lines

def Tells (label : String) (fact : Prop) (lines : List String) : Prop :=
  ∀ line ∈ lines, (label ++ ":").toList <+: line.toList → ("ok".toList <:+ line.toList ↔ fact)

/-- The verdicts in the lines are those on the image. -/
structure Honest (image : Image) (h : Image.headerEnd ≤ image.size) (lines : List String) :
    Prop where
  logo : Tells "Logo" ((image.extract 0x104 0x134).toList = Header.bootLogo.toList) lines
  headerChecksum : Tells "Header checksum"
    (image.headerChecksum? = some (Header.byte image h 0x14D Image.headerChecksumAddr_lt)) lines
  globalChecksum : Tells "Global checksum"
    (image.globalChecksum? = some (Header.word image h 0x14E Image.globalChecksumAddr_lt)) lines

section

variable {label : String} {fact : Prop} {entry : String × String} {entries : List (String × String)}

theorem toList_content (entry : String × String) :
    ∃ rest, (content entry).toList = entry.1.toList ++ ':' :: rest := by
  simp [content]

theorem content_title (title : String) :
    content ("Title", title) = "Title:           " ++ title := by
  have hlabel : "Title:" ++ String.ofList (.replicate (labelWidth - "Title:".length) ' ') =
      "Title:           " := by decide
  have hcolon : "Title" ++ ":" = "Title:" := by decide
  rw [content, hcolon, hlabel]

theorem label_eq_of_starts (h : (label ++ ":").toList <+: (content entry).toList)
    (hlabel : ':' ∉ label.toList) (hentry : ':' ∉ entry.1.toList) : label = entry.1 := by
  obtain ⟨rest, hrest⟩ := h
  obtain ⟨rest', hrest'⟩ := toList_content entry
  rw [hrest', String.toList_append, List.append_assoc] at hrest
  have heq := congrArg (List.takeWhile (· ≠ ':')) hrest
  rw [takeWhile_ne_append hentry] at heq
  exact String.toList_inj.1 ((takeWhile_ne_append hlabel rest).symm.trans heq)

theorem labelled_contents (entries : List (String × String)) :
    Labelled (entries.map (·.1)) (entries.map content) := by
  rw [Labelled, List.forall₂_map_left_iff, List.forall₂_map_right_iff, List.forall₂_same]
  intro entry _
  obtain ⟨rest, hrest⟩ := toList_content entry
  exact ⟨rest, by rw [hrest]; simp⟩

theorem ok_ends_verdict_iff (s : String) (ok : Bool) :
    "ok".toList <:+ (s ++ verdict ok).toList ↔ ok = true := by
  cases ok with
  | true => simp [verdict]
  | false =>
    simp only [Bool.false_eq_true, iff_false]
    intro h
    have hlast := h.getLast (by simp)
    simp [verdict] at hlast

theorem tells_contents (s : String) (ok : Bool) (hfact : ok = true ↔ fact)
    (hlabel : ':' ∉ label.toList) (hentries : ∀ e ∈ entries, ':' ∉ e.1.toList)
    (h : ∀ e ∈ entries, label = e.1 → e.2 = s ++ verdict ok) :
    Tells label fact (entries.map content) := by
  intro line hline hstarts
  obtain ⟨entry, hmem, rfl⟩ := List.mem_map.1 hline
  have hvalue := h entry hmem (label_eq_of_starts hstarts hlabel (hentries entry hmem))
  rw [content, hvalue, ← String.append_assoc, ok_ends_verdict_iff, hfact]

theorem Tells.mono {lines lines' : List String} (h : Tells label fact lines)
    (hsubset : lines' ⊆ lines) : Tells label fact lines' :=
  fun line hline => h line (hsubset hline)

theorem Honest.mono {image : Image} {hsize : Image.headerEnd ≤ image.size}
    {lines lines' : List String} (h : Honest image hsize lines) (hsubset : lines' ⊆ lines) :
    Honest image hsize lines' :=
  ⟨h.logo.mono hsubset, h.headerChecksum.mono hsubset, h.globalChecksum.mono hsubset⟩

end

end Report

namespace Cartridge

open Report Utf8

variable {image : Image} {c : Cartridge}

theorem honest_contents (h : Image.headerEnd ≤ image.size) (hload : load image = .ok c) :
    Honest image h (c.reportLines.map content) := by
  have hlabels : ∀ entry ∈ c.reportLines, ':' ∉ entry.1.toList := by
    have hall : ∀ label ∈ labels, ':' ∉ label.toList := by decide
    exact fun entry hmem => hall _ (List.mem_map_of_mem hmem)
  have hlogo : c.header.logoMatches = true ↔
      (image.extract 0x104 0x134).toList = Header.bootLogo.toList := by
    obtain ⟨-, rfl⟩ := load_eq_ok_iff.1 hload
    rw [Header.logoMatches, beq_iff_eq, ← Vector.toList_inj,
      ← Header.toList_field h 0x104 48 (by decide)]
    rfl
  have hheader := headerChecksumOk_iff_of_load h hload
  have hglobal := globalChecksumOk_iff_of_load h hload
  exact ⟨tells_contents "" _ hlogo (by decide) hlabels (by simp [reportLines]),
    tells_contents (hexByte c.header.headerChecksumByte ++ " ") _ hheader (by decide) hlabels
      (by simp [reportLines]),
    tells_contents ("0x" ++ Hex.ofWord c.header.globalChecksum ++ " ") _ hglobal (by decide) hlabels
      (by simp [reportLines])⟩

theorem plain_name (m : Mapper) : Plain m.name := by
  cases m with
  | unknown code =>
    rw [Mapper.name, plain_append, plain_append]
    exact ⟨⟨by decide, plain_repr _⟩, by decide⟩
  | _ => decide

theorem plain_features (k : Kind) : Plain k.features := by
  rw [Kind.features, plain_join]
  intro name hname
  obtain ⟨⟨present, name'⟩, hmem, hsome⟩ := List.mem_filterMap.1 hname
  have hplain : ∀ name ∈ ["+RAM", "+BATTERY", "+TIMER", "+RUMBLE"], Plain name := by decide
  have hname' := hplain name' (List.mem_map_of_mem (f := Prod.snd) hmem)
  cases present with
  | false => cases hsome
  | true => exact Option.some.inj hsome ▸ hname'

theorem plain_verdict (ok : Bool) : Plain (verdict ok) := by
  cases ok <;> decide

theorem plain_hexByte (b : UInt8) : Plain (hexByte b) :=
  plain_append.2 ⟨by decide, Hex.plain_ofByte b⟩

theorem plain_size (bytes : Option Nat) (code : UInt8) : Plain (size bytes code) := by
  cases bytes with
  | none =>
    simp only [size, plain_append]
    exact ⟨⟨⟨by decide, by decide⟩, plain_hexByte code⟩, by decide⟩
  | some n =>
    simp only [size, plain_append]
    exact ⟨⟨⟨⟨plain_repr _, by decide⟩, by decide⟩, plain_hexByte code⟩, by decide⟩

theorem plain_content {entry : String × String} (hlabel : Plain entry.1) (hvalue : Plain entry.2) :
    Plain (content entry) := by
  simp only [content, plain_append]
  refine ⟨⟨⟨hlabel, by decide⟩, fun c hc => ?_⟩, hvalue⟩
  rw [String.toList_ofList] at hc
  rw [List.eq_of_mem_replicate hc]
  decide

theorem plain_of_mem_tail (c : Cartridge) : ∀ entry ∈ c.reportLines.tail, Plain entry.2 := by
  have hdestination : Plain (if c.header.destinationCode = 0 then "Japan" else "Overseas") := by
    split <;> decide
  simp +decide [reportLines, plain_append, plain_hexByte, plain_size, plain_name, plain_features,
    plain_repr, plain_verdict, hdestination, Hex.plain_ofWord]

theorem plain_of_mem_contents (c : Cartridge) :
    ∀ line ∈ c.reportLines.tail.map content, Plain line := by
  intro line hline
  obtain ⟨entry, hmem, rfl⟩ := List.mem_map.1 hline
  have hlabels : ∀ label ∈ labels.tail, Plain label := by decide
  exact plain_content (hlabels _ (List.mem_map_of_mem hmem)) (plain_of_mem_tail c entry hmem)

theorem lines_report {front : List String}
    (h : Lines ("Title:           " ++ c.header.title ++ "\n") front) :
    Lines c.report (front ++ c.reportLines.tail.map content) := by
  have hreport : c.report = "Title:           " ++ c.header.title ++ "\n" ++
      String.join ((c.reportLines.tail.map content).map (· ++ "\n")) := by
    rw [List.map_map]
    exact String.join_cons
  rw [hreport]
  exact h.append (.join fun line hline => (plain_of_mem_contents c line hline).newline_not_mem)

theorem count_newlines_of_load (hload : load image = .ok c) :
    c.header.title.toList.count '\n' = image.titleBytes.count 0x0A :=
  count_title_of_load hload (b := 0x0A) (by decide) (by decide)

theorem length_title_lines (hload : load image = .ok c) {front : List String}
    (h : Lines ("Title:           " ++ c.header.title ++ "\n") front) :
    front.length = 1 + image.titleBytes.count 0x0A := by
  rw [h.length_eq]
  simp [count_newlines_of_load hload, Nat.add_comm]

theorem lines_contents (hload : load image = .ok c) (hnew : 0x0A ∉ image.titleBytes) :
    Lines c.report (c.reportLines.map content) := by
  have hcontents : c.reportLines.map content =
      [content ("Title", c.header.title)] ++ c.reportLines.tail.map content := rfl
  rw [hcontents, content_title]
  refine lines_report (.single ?_)
  rw [← List.count_eq_zero, String.toList_append, List.count_append, count_newlines_of_load hload,
    List.count_eq_zero.2 hnew]
  rfl

/-- Whatever bytes the title has, eleven printable lines follow it, whose verdicts are true of the
image. The report has its twelve lines and no others just when there is no newline among the bytes
of the title; each newline there adds a line. -/
theorem report_is_read_by_line (image : Image) (h : 336 ≤ image.size) :
    ∃ c, load image = .ok c ∧ (∀ path, Session.info path (.ok image) = .ok c.report) ∧
      ((∃ lines, Lines c.report lines ∧ lines.length = 12 ∧ Labelled labels lines ∧
          Honest image h lines) ↔ 0x0A ∉ (image.extract 0x134 0x13F).toList) ∧
      ∃ front rest, Lines c.report (front ++ rest) ∧
        Lines ("Title:           " ++ c.header.title ++ "\n") front ∧
        front.length = 1 + (image.extract 0x134 0x13F).toList.count 0x0A ∧
        Labelled labels.tail rest ∧ Honest image h rest ∧ ∀ line ∈ rest, Plain line := by
  obtain ⟨c, hload⟩ := exists_load h
  have hinfo (path : String) : Session.info path (.ok image) = .ok c.report := by
    rw [Session.info, Session.loadCartridge, hload]
    rfl
  obtain ⟨front, hfront⟩ := exists_lines ("Title:           " ++ c.header.title)
  have hlength := length_title_lines hload hfront
  have hlines := lines_report hfront
  have hhonest := honest_contents h hload
  refine ⟨c, hload, hinfo, ⟨?_, fun hnew => ?_⟩, front, c.reportLines.tail.map content, hlines,
    hfront, hlength, labelled_contents c.reportLines.tail, hhonest.mono ?_, fun line hline => ?_⟩
  · rintro ⟨lines, htwelve, hcount, -⟩
    have htotal : front.length + 11 = 12 := by
      have hsame := congrArg List.length (hlines.unique htwelve)
      rwa [hcount, List.length_append] at hsame
    exact List.count_eq_zero.1 (by omega : image.titleBytes.count 0x0A = 0)
  · exact ⟨_, lines_contents hload hnew, rfl, labelled_contents c.reportLines, hhonest⟩
  · exact List.map_subset content (List.tail_subset c.reportLines)
  · exact plain_of_mem_contents c line hline

def overprint : Vector UInt8 Header.titleLength :=
  #v[0x41, 0x0D, 0xFF, 0x4C, 0x6F, 0x67, 0x6F, 0x3A, 0x20, 0x6F, 0x6B]

theorem carriage_return_leaves_twelve_lines :
    336 ≤ (titledImage overprint).size ∧
      ∃ c, load (titledImage overprint) = .ok c ∧ c.header.title = "A\r\uFFFDLogo: ok" ∧
        ∃ lines, Lines c.report lines ∧ lines.length = 12 ∧ Labelled labels lines ∧
          Honest (titledImage overprint) (headerEnd_le_titledImage overprint) lines := by
  have hsize := headerEnd_le_titledImage overprint
  obtain ⟨c, hload, -, htwelve, -⟩ := report_is_read_by_line _ hsize
  have htitle : c.header.title = "A\r\uFFFDLogo: ok" := by
    rw [title_of_load hload, titleBytes_titledImage]
    decide
  have hnew : 0x0A ∉ (titledImage overprint).titleBytes := by
    rw [titleBytes_titledImage]
    decide
  obtain ⟨lines, hlines, hlength, hlabelled, hhonest⟩ := htwelve.2 hnew
  exact ⟨hsize, c, hload, htitle, lines, hlines, hlength, hlabelled, hhonest⟩

/-- A title that begins with a newline and goes on like a verdict. -/
def forgery : Vector UInt8 Header.titleLength :=
  #v[0x0A, 0x4C, 0x6F, 0x67, 0x6F, 0x3A, 0x20, 0x20, 0x20, 0x6F, 0x6B]

theorem title_forges_verdict :
    ∃ c, load (titledImage forgery) = .ok c ∧
      (¬ ∃ lines, Lines c.report lines ∧ lines.length = 12 ∧ Labelled labels lines ∧
        Honest (titledImage forgery) (headerEnd_le_titledImage forgery) lines) ∧
      ∃ lines, Lines c.report lines ∧ "Logo:   ok" ∈ lines ∧
        ((titledImage forgery).extract 0x104 0x134).toList ≠ Header.bootLogo.toList := by
  obtain ⟨c, hload⟩ := exists_load (headerEnd_le_titledImage forgery)
  have htitle : c.header.title = "\nLogo:   ok" := by
    rw [title_of_load hload, titleBytes_titledImage]
    decide
  have hfront : Lines ("Title:           " ++ c.header.title ++ "\n")
      ["Title:           ", "Logo:   ok"] := by
    rw [htitle]
    exact ⟨by decide, by decide⟩
  have hlines := lines_report hfront
  refine ⟨c, hload, ?_, _, hlines, by simp, ?_⟩
  · rintro ⟨lines, htwelve, hcount, -⟩
    rw [← hlines.unique htwelve] at hcount
    cases hcount
  · decide +kernel

end Cartridge

end DotMatrix
