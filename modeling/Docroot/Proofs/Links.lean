import Docroot.Proofs.Regular
import Docroot.Proofs.Table

/-!
The links of a listing. Each row leads to the item that it shows, whatever the name of the item is,
and no name and no path can put a tag or a value of its own into the page.
-/

namespace Docroot.Listing

open Text RequestPath

/-! ### Where a link leads -/

lemma escapedInPath_of_escapedInSegment (b : UInt8) (h : escapedInSegment b = false) :
    escapedInPath b = false :=
  (Bool.or_eq_false_iff.1 h).1

lemma plain_of_mem_link {path : Text} {i : Item} {c : Char} (hc : c ∈ link (encode path) i) :
    c ≠ '?' ∧ c ≠ '#' := by
  rcases List.mem_append.1 hc with hc | hc
  · rcases List.mem_append.1 hc with hc | hc
    · exact (writtenChar_of_mem_percentEncode (fun _ hb => hb) hc).plain
    · exact (writtenChar_of_mem_percentEncode escapedInPath_of_escapedInSegment hc).plain
  · unfold slash at hc
    split at hc
    · obtain rfl := List.mem_singleton.1 hc
      decide
    · exact absurd hc List.not_mem_nil

/-- A link stands for the path followed by the name, although a slash is escaped in the one and not
in the other. -/
lemma percentDecode?_link (path : Text) (i : Item) :
    percentDecode? (link (encode path) i) = some (path ++ i.name ++ slash i) := by
  have hpath : ∀ rest, percentDecodeBytes (utf8 (encode path) ++ rest) =
      utf8 path ++ percentDecodeBytes rest := percentDecodeBytes_flatMap (fun _ hb => hb) _
  have hname : ∀ rest, percentDecodeBytes (utf8 (percentEncode escapedInSegment i.name) ++ rest) =
      utf8 i.name ++ percentDecodeBytes rest :=
    percentDecodeBytes_flatMap escapedInPath_of_escapedInSegment _
  have hslash : percentDecodeBytes (utf8 (slash i)) = utf8 (slash i) := by
    unfold slash
    split <;> decide
  have hlink : percentDecodeBytes (utf8 (link (encode path) i)) =
      utf8 (path ++ i.name ++ slash i) := by
    calc percentDecodeBytes (utf8 (link (encode path) i))
        = percentDecodeBytes (utf8 (encode path) ++
            (utf8 (percentEncode escapedInSegment i.name) ++ utf8 (slash i))) := by
          rw [link, utf8_append, utf8_append, List.append_assoc]
      _ = utf8 path ++ (utf8 i.name ++ percentDecodeBytes (utf8 (slash i))) := by
          rw [hpath, hname]
      _ = utf8 (path ++ i.name ++ slash i) := by
          rw [hslash, List.append_assoc, utf8_append, utf8_append]
  rw [percentDecode?, hlink, ofUtf8?_utf8]

/-- What a raw path names depends on what it stands for alone. -/
lemma normalize?_congr {raw raw' : Text} (h : percentDecode? raw = percentDecode? raw') :
    normalize? raw = normalize? raw' := by
  unfold normalize?
  rw [h]

lemma normalize?_link {path : Text} (hp : Regular path) (hs : ['/'] <:+ path) {i : Item}
    (hi : Plain i.name) :
    normalize? (link (encode path) i) = some (path ++ i.name ++ slash i) := by
  have hregular : Regular (path ++ i.name ++ slash i) := by
    obtain ⟨hname, hend, -⟩ := hp.append_name hs hi
    unfold slash
    split
    · exact (hname.append_slash hend).1
    · rwa [List.append_nil]
  rw [← hregular.normalize?_encode]
  exact normalize?_congr ((percentDecode?_link path i).trans
    (percentDecode?_percentEncode (fun _ hb => hb) _).symm)

/-! ### What names and paths add to a page -/

def Item.nameless (i : Item) : Item := { i with name := [] }

/-- The marks of a row are those of the row of an item without a name at a path without a
character. -/
lemma filter_marks_row (base : Text) (i : Item) :
    (row base i).filter (· ∈ marks) = (row [] i.nameless).filter (· ∈ marks) := by
  have hslash : slash i.nameless = slash i := rfl
  have htime : timeText i.nameless = timeText i := rfl
  have hsize : sizeText i.nameless = sizeText i := rfl
  unfold row rowText
  simp only [List.filter_append, (unmarked_markup _).filter_eq, hslash, htime, hsize]

lemma filter_marks_page (base : Text) (parent : Bool) (arr : Arrangement) (items : List Item) :
    (page base parent arr (items.flatMap (row base))).filter (· ∈ marks) =
      (page [] parent arr ((items.map Item.nameless).flatMap (row []))).filter (· ∈ marks) := by
  have hrows : (items.flatMap (row base)).filter (· ∈ marks) =
      ((items.map Item.nameless).flatMap (row [])).filter (· ∈ marks) := by
    rw [List.filter_flatMap, List.filter_flatMap, List.flatMap_map]
    exact congrArg items.flatMap (funext (filter_marks_row base))
  unfold page
  simp only [List.filter_append, (unmarked_markup _).filter_eq, hrows]

lemma escaped_rowText {target label time size : Text} (htarget : target.Escaped)
    (hlabel : label.Escaped) (htime : time.Escaped) (hsize : size.Escaped) :
    Escaped (rowText target label time size) := by
  have hopening : Escaped "<tr><td><a href=\"".toList := escaped_of_not_mem (by decide)
  have hbehind : Escaped "\">".toList := escaped_of_not_mem (by decide)
  have hlink : Escaped "</a></td><td>".toList := escaped_of_not_mem (by decide)
  have hcell : Escaped "</td><td>".toList := escaped_of_not_mem (by decide)
  have hclosing : Escaped "</td></tr>\n".toList := escaped_of_not_mem (by decide)
  have hfirst := ((hopening.append htarget).append hbehind).append hlabel
  exact ((((hfirst.append hlink).append htime).append hcell).append hsize).append hclosing

lemma escaped_row (base : Text) (i : Item) : Escaped (row base i) :=
  escaped_rowText (escaped_markup _) ((escaped_markup _).append (bare_slash i).escaped)
    (bare_timeText i).escaped (bare_sizeText i).escaped

lemma escaped_parentRow : Escaped parentRow := by
  rw [parentRow_eq]
  exact escaped_rowText (escaped_of_not_mem (by decide)) (escaped_of_not_mem (by decide))
    (escaped_of_not_mem (by decide)) (escaped_of_not_mem (by decide))

lemma escaped_heading (arr : Arrangement) {label : Text} (hlabel : '&' ∉ label) (column : Column)
    {key : Char} (hkey : key ≠ '&') : Escaped (heading arr label column key) := by
  have hopening : Escaped "<th><a href=\"?C=".toList := escaped_of_not_mem (by decide)
  have hentity : Escaped "&amp;O=".toList := escaped_markup "&O=".toList
  have hbehind : Escaped "\">".toList := escaped_of_not_mem (by decide)
  have hclosing : Escaped "</a></th>".toList := escaped_of_not_mem (by decide)
  have hlink := (hbehind.append (escaped_of_not_mem hlabel)).append hclosing
  unfold heading
  refine hopening.append (.cons hkey (hentity.append (.cons ?_ hlink)))
  split <;> decide

lemma escaped_page (base : Text) (parent : Bool) (arr : Arrangement) (items : List Item) :
    Escaped (page base parent arr (items.flatMap (row base))) := by
  have hopening : Escaped headOpening := escaped_of_not_mem (by decide +kernel)
  have hmiddle : Escaped headMiddle := escaped_of_not_mem (by decide)
  have hhead : Escaped headClosing := escaped_of_not_mem (by decide)
  have hbody : Escaped bodyOpening := escaped_of_not_mem (by decide)
  have hclosing : Escaped pageClosing := escaped_of_not_mem (by decide)
  have hheadings : Escaped (headings arr) :=
    ((escaped_heading arr (by decide) .name (by decide)).append
      (escaped_heading arr (by decide) .modified (by decide))).append
        (escaped_heading arr (by decide) .size (by decide))
  have hparent : Escaped (if parent then parentRow else []) := by
    split
    · exact escaped_parentRow
    · exact escaped_of_not_mem List.not_mem_nil
  have htitle := (((hopening.append (escaped_markup base)).append hmiddle).append
    (escaped_markup base)).append hhead
  have hrows := ((htitle.append hheadings).append hbody).append hparent
  exact (hrows.append (.flatMap fun i _ => escaped_row base i)).append hclosing

/-- Target and text of a link, as they stand in the page, lead to the item and name it. The target
is a path alone, and no quote in it ends it early. -/
structure LeadsTo (path : Text) (i : Item) (target label : Text) : Prop where
  closed : '"' ∉ target
  plain : '?' ∉ unescape target ∧ '#' ∉ unescape target
  leads : normalize? (unescape target) = some (path ++ i.name ++ slash i)
  named : unescape label = i.name ++ slash i

lemma leadsTo_of_plain {path : Text} (hp : Regular path) (hs : ['/'] <:+ path) {i : Item}
    (hi : Plain i.name) :
    LeadsTo path i (markup (link (encode path) i)) (markup i.name ++ slash i) where
  closed := fun hm => unmarked_markup _ _ hm (by decide)
  plain := by
    rw [unescape_markup]
    exact ⟨fun hm => (plain_of_mem_link hm).1 rfl, fun hm => (plain_of_mem_link hm).2 rfl⟩
  leads := by
    rw [unescape_markup]
    exact normalize?_link hp hs hi
  named := by
    rw [unescape_markup_append]
    congr 1
    unfold slash
    split <;> rfl

/-- **The links of a listing**: a page is written for items just when there is a date for each
time. It shows the items in order, each in a row whose link leads to the item and names it; its tags
and values begin and end where they would without a path and without names; and every `&` in it
begins an entity. -/
theorem page_leads {raw path : Text} (hraw : normalize? raw = some path) (hs : ['/'] <:+ path)
    (parent : Bool) (arr : Arrangement) {items : List Item} (hi : ∀ i ∈ items, Plain i.name) :
    ((∃ listing, page? (encode path) parent arr items = some listing) ↔
      ∀ i ∈ items, i.OnCalendar) ∧
    ∀ listing, page? (encode path) parent arr items = some listing →
      (∃ shown, rows listing = (if parent then [parentCells] else []) ++ shown ∧
        List.Forall₂ (fun i row => ∃ target label time, timeText? i = some time ∧
          row = cells target label time (sizeText i) ∧ LeadsTo path i target label) items shown) ∧
      (∃ bare, page? [] parent arr (items.map Item.nameless) = some bare ∧
        listing.filter (· ∈ marks) = bare.filter (· ∈ marks)) ∧
      Escaped listing := by
  have hp := regular_of_normalize? hraw
  refine ⟨exists_page?_iff, fun listing hl => ?_⟩
  obtain ⟨shown, hrows, hshown⟩ := exists_rows_of_page? hl
  obtain ⟨hdates, hpage⟩ := page?_eq_some_iff.1 hl
  -- the page of the nameless items is dated as this one is
  have hnameless : ∀ i ∈ items.map Item.nameless, i.OnCalendar := by
    intro i hm
    obtain ⟨x, hx, rfl⟩ := List.mem_map.1 hm
    exact hdates x hx
  obtain ⟨bare, hbare⟩ : ∃ bare, page? [] parent arr (items.map Item.nameless) = some bare :=
    exists_page?_iff.2 hnameless
  refine ⟨⟨shown, hrows, ?_⟩, ⟨bare, hbare, ?_⟩, ?_⟩
  · refine ((List.forall₂_and_left _ _).2 ⟨hi, hshown⟩).imp ?_
    rintro i row ⟨hname, time, htime, hcells⟩
    exact ⟨_, _, time, htime, hcells, leadsTo_of_plain hp hs hname⟩
  · rw [hpage, (page?_eq_some_iff.1 hbare).2]
    exact filter_marks_page _ _ _ _
  · rw [hpage]
    exact escaped_page _ _ _ _

namespace Sample

/-- A file whose name is full of characters with a meaning in markup and in locations. -/
def hostile : Item := ⟨"<1>&lt;\"?#%41'.txt".toList, false, 3, none⟩

def hidden : Item := ⟨"..x".toList, true, 4096, some ⟨784111777000000000⟩⟩

end Sample

theorem page_leads_sample :
    let path := "/a b&/".toList
    let items := [Sample.hostile, Sample.hidden]
    normalize? "//a%20b%26/".toList = some path ∧ ['/'] <:+ path ∧ (∀ i ∈ items, Plain i.name) ∧
      ∃ listing, page? (encode path) true ⟨.name, false⟩ items = some listing ∧
        (∃ shown, rows listing = [parentCells] ++ shown ∧
          List.Forall₂ (fun i row => ∃ target label time, timeText? i = some time ∧
            row = cells target label time (sizeText i) ∧ LeadsTo path i target label)
            items shown) ∧
        (∃ bare, page? [] true ⟨.name, false⟩ (items.map Item.nameless) = some bare ∧
          listing.filter (· ∈ marks) = bare.filter (· ∈ marks)) ∧
        Escaped listing := by
  have hraw : normalize? "//a%20b%26/".toList = some "/a b&/".toList := by decide +kernel
  have hs : ['/'] <:+ "/a b&/".toList := by decide
  have hi : ∀ i ∈ [Sample.hostile, Sample.hidden], Plain i.name := by
    simp only [List.forall_mem_cons]
    exact ⟨⟨⟨by decide, by decide⟩, by decide, by decide⟩,
      ⟨⟨by decide, by decide⟩, by decide, by decide⟩, fun _ h => absurd h List.not_mem_nil⟩
  have hdates : ∀ i ∈ [Sample.hostile, Sample.hidden], i.OnCalendar := by
    simp only [List.forall_mem_cons]
    refine ⟨fun t h => (by cases h), fun t h => ?_, fun _ h => absurd h List.not_mem_nil⟩
    cases h
    decide
  obtain ⟨hwritten, hall⟩ := page_leads hraw hs true ⟨.name, false⟩ hi
  obtain ⟨listing, hl⟩ := hwritten.2 hdates
  exact ⟨hraw, hs, hi, listing, hl, hall listing hl⟩

end Docroot.Listing
