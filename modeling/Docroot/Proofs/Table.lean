import Mathlib.Data.List.Forall2
import Docroot.Listing
import Docroot.Proofs.Dates
import Docroot.Proofs.Entities

/-!
A listing, read again. A reader cuts a page at its tags, passing over what stands in quotes; the
rows of the table are what it finds between `tr` and `/tr` in the body of the table. It finds the
rows that were written, whatever the path and the items are.
-/

namespace Docroot.Listing

open Text

/-- A tag, as it stands between its brackets, and the text behind it up to the next tag. -/
structure Tag where
  inside : Text
  behind : Text
deriving DecidableEq

/-- Where the reader of a page stands: between two tags, in a tag, or in a quoted value in one. -/
inductive Place
  | text
  | tag
  | value (quote : Char)

/-- The tags of a page from a place on; of one tag the reader has read a part. -/
def read : Place → Tag → Text → List Tag
  | _, t, [] => [t]
  | .text, t, c :: r =>
    if c = '<' then t :: read .tag ⟨[], []⟩ r else read .text ⟨t.inside, t.behind ++ [c]⟩ r
  | .tag, t, c :: r =>
    if c = '>' then read .text t r
    else read (if c = '"' ∨ c = '\'' then .value c else .tag) ⟨t.inside ++ [c], t.behind⟩ r
  | .value q, t, c :: r =>
    read (if c = q then .tag else .value q) ⟨t.inside ++ [c], t.behind⟩ r

/-- What stands between each tag that opens a row and the next one that closes one. -/
def rowsIn : List Tag → List (List Tag)
  | [] => []
  | t :: r =>
    if t.inside = "tr".toList then r.takeWhile (·.inside ≠ "/tr".toList) :: rowsIn r else rowsIn r

def rows (page : Text) : List (List Tag) :=
  rowsIn ((read .text ⟨[], []⟩ page).dropWhile (·.inside ≠ "tbody".toList))

/-- A row with one link, a time and a size. -/
def cells (target label time size : Text) : List Tag :=
  [⟨"td".toList, []⟩, ⟨"a href=\"".toList ++ target ++ ['"'], label⟩, ⟨"/a".toList, []⟩,
    ⟨"/td".toList, []⟩, ⟨"td".toList, time⟩, ⟨"/td".toList, []⟩, ⟨"td".toList, size⟩,
    ⟨"/td".toList, []⟩]

/-- The row of a link to the parent directory. -/
def parentCells : List Tag :=
  cells "../".toList "Parent Directory".toList ['-'] ['-']

/-- A row shows an item: its link, its time, and its size. -/
def Shows (base : Text) (i : Item) (row : List Tag) : Prop :=
  ∃ time, timeText? i = some time ∧
    row = cells (markup (link base i)) (markup i.name ++ slash i) time (sizeText i)

/-! ### What is written of an item -/

/-- There is a date for the time of the item. -/
def Item.OnCalendar (i : Item) : Prop := ∀ t, i.modified = some t → t.OnCalendar

def timeText (i : Item) : Text := (i.modified.map Timestamp.minuteForm).getD ['-']

lemma timeText?_eq_some_iff {i : Item} {time : Text} :
    timeText? i = some time ↔ i.OnCalendar ∧ time = timeText i := by
  unfold timeText? timeText Item.OnCalendar Timestamp.minuteForm?
  cases i.modified with
  | none => simp [eq_comm]
  | some t => simp [eq_comm]

def itemCells (base : Text) (i : Item) : List Tag :=
  cells (markup (link base i)) (markup i.name ++ slash i) (timeText i) (sizeText i)

def rowText (target label time size : Text) : Text :=
  "<tr><td><a href=\"".toList ++ target ++ "\">".toList ++ label ++ "</a></td><td>".toList ++
    time ++ "</td><td>".toList ++ size ++ "</td></tr>\n".toList

def row (base : Text) (i : Item) : Text :=
  rowText (markup (link base i)) (markup i.name ++ slash i) (timeText i) (sizeText i)

lemma row?_eq_some_iff {base : Text} {i : Item} {text : Text} :
    row? base i = some text ↔ i.OnCalendar ∧ text = row base i := by
  have hrow : ∀ time, "<tr><td><a href=\"".toList ++ markup (link base i) ++ "\">".toList ++
      markup i.name ++ slash i ++ "</a></td><td>".toList ++ time ++ "</td><td>".toList ++
      sizeText i ++ "</td></tr>\n".toList =
        rowText (markup (link base i)) (markup i.name ++ slash i) time (sizeText i) := by
    intro time
    unfold rowText
    rw [← List.append_assoc _ (markup i.name)]
  unfold row? row
  simp only [Option.map_eq_some_iff, timeText?_eq_some_iff, hrow]
  constructor
  · rintro ⟨time, ⟨hi, rfl⟩, rfl⟩
    exact ⟨hi, rfl⟩
  · rintro ⟨hi, rfl⟩
    exact ⟨_, ⟨hi, rfl⟩, rfl⟩

lemma mapM_row?_eq_some_iff {base : Text} {items : List Item} {texts : List Text} :
    items.mapM (row? base) = some texts ↔
      (∀ i ∈ items, i.OnCalendar) ∧ texts = items.map (row base) := by
  induction items generalizing texts with
  | nil => simp [eq_comm]
  | cons i items ih =>
    simp only [List.mapM_cons, bind, Option.bind_eq_some_iff, row?_eq_some_iff, ih, pure,
      Option.some.injEq, List.forall_mem_cons, List.map_cons]
    constructor
    · rintro ⟨text, ⟨hi, rfl⟩, texts, ⟨hitems, rfl⟩, rfl⟩
      exact ⟨⟨hi, hitems⟩, rfl⟩
    · rintro ⟨⟨hi, hitems⟩, rfl⟩
      exact ⟨_, ⟨hi, rfl⟩, _, ⟨hitems, rfl⟩, rfl⟩

/-- **A page is written** just when there is a date for each time that it shows. -/
lemma page?_eq_some_iff {base : Text} {parent : Bool} {arr : Arrangement} {items : List Item}
    {listing : Text} :
    page? base parent arr items = some listing ↔
      (∀ i ∈ items, i.OnCalendar) ∧ listing = page base parent arr (items.flatMap (row base)) := by
  rw [page?, Option.map_eq_some_iff, List.flatMap_def]
  constructor
  · rintro ⟨texts, htexts, hl⟩
    obtain ⟨hi, rfl⟩ := mapM_row?_eq_some_iff.1 htexts
    exact ⟨hi, hl.symm⟩
  · rintro ⟨hi, hl⟩
    exact ⟨_, mapM_row?_eq_some_iff.2 ⟨hi, rfl⟩, hl.symm⟩

lemma exists_page?_iff {base : Text} {parent : Bool} {arr : Arrangement} {items : List Item} :
    (∃ listing, page? base parent arr items = some listing) ↔ ∀ i ∈ items, i.OnCalendar := by
  simp [page?_eq_some_iff]

lemma exists_render?_iff {base : Text} {parent : Bool} {query : Option Text} {items : List Item} :
    (∃ listing, render? base parent query items = some listing) ↔
      ∀ i ∈ items, i.OnCalendar := by
  unfold render? arrange
  rw [exists_page?_iff]
  simp only [(Ordered.sort_perm _ items).mem_iff]

/-! ### What stands in a cell -/

lemma bare_padded (width n : Nat) : Bare (padded width n) :=
  bare_of_isDigit fun _ hc => isDigit_of_mem_padded hc

lemma bare_sizeText (i : Item) : Bare (sizeText i) := by
  unfold sizeText
  split
  · decide
  · exact bare_of_isDigit fun c hc => isDigit_of_mem_decimal hc

lemma bare_yearText (y : Int) : Bare (Timestamp.yearText y) := by
  unfold Timestamp.yearText
  split
  · exact bare_padded 4 _
  · refine Bare.cons ?_ (bare_padded 4 _)
    split <;> decide

lemma bare_timeText (i : Item) : Bare (timeText i) := by
  unfold timeText
  cases i.modified with
  | none => decide
  | some t =>
    have hdate : Bare (Timestamp.dateForm t.date) :=
      (bare_yearText _).append (.cons (by decide)
        ((bare_padded 2 _).append (.cons (by decide) (bare_padded 2 _))))
    exact hdate.append (.cons (by decide)
      ((bare_padded 2 _).append (.cons (by decide) (bare_padded 2 _))))

lemma bare_slash (i : Item) : Bare (slash i) := by
  unfold slash
  split <;> decide

/-! ### Reading a row -/

lemma read_text {s : Text} (h : s.Unmarked) (t : Tag) (r : Text) :
    read .text t (s ++ r) = read .text ⟨t.inside, t.behind ++ s⟩ r := by
  induction s generalizing t with
  | nil => rw [List.nil_append, List.append_nil]
  | cons c s ih =>
    have hc : c ≠ '<' := fun he => h c List.mem_cons_self (he ▸ by decide)
    rw [List.cons_append, read, if_neg hc, ih fun d hd => h d (List.mem_cons_of_mem c hd)]
    simp

lemma read_value {s : Text} (h : s.Unmarked) (t : Tag) (r : Text) :
    read (.value '"') t (s ++ r) = read (.value '"') ⟨t.inside ++ s, t.behind⟩ r := by
  induction s generalizing t with
  | nil => rw [List.nil_append, List.append_nil]
  | cons c s ih =>
    have hc : c ≠ '"' := fun he => h c List.mem_cons_self (he ▸ by decide)
    rw [List.cons_append, read, if_neg hc, ih fun d hd => h d (List.mem_cons_of_mem c hd)]
    simp

lemma read_value_end (inside r : Text) :
    read (.value '"') ⟨inside, []⟩ ("\">".toList ++ r) = read .text ⟨inside ++ ['"'], []⟩ r := by
  simp [read]

lemma read_rowText {target label time size : Text} (htarget : target.Unmarked)
    (hlabel : label.Unmarked) (htime : time.Unmarked) (hsize : size.Unmarked) (t : Tag) (r : Text) :
    read .text t (rowText target label time size ++ r) =
      t :: ⟨"tr".toList, []⟩ :: cells target label time size ++
        read .text ⟨"/tr".toList, ['\n']⟩ r := by
  have hopening : ∀ r, read .text t ("<tr><td><a href=\"".toList ++ r) =
      t :: ⟨"tr".toList, []⟩ :: ⟨"td".toList, []⟩ ::
        read (.value '"') ⟨"a href=\"".toList, []⟩ r := fun _ => by simp [read]
  have hlink : ∀ (u : Tag) r, read .text u ("</a></td><td>".toList ++ r) =
      u :: ⟨"/a".toList, []⟩ :: ⟨"/td".toList, []⟩ :: read .text ⟨"td".toList, []⟩ r :=
    fun _ _ => by simp [read]
  have hcell : ∀ (u : Tag) r, read .text u ("</td><td>".toList ++ r) =
      u :: ⟨"/td".toList, []⟩ :: read .text ⟨"td".toList, []⟩ r := fun _ _ => by simp [read]
  have hclosing : ∀ (u : Tag) r, read .text u ("</td></tr>\n".toList ++ r) =
      u :: ⟨"/td".toList, []⟩ :: read .text ⟨"/tr".toList, ['\n']⟩ r := fun _ _ => by simp [read]
  unfold rowText
  simp only [List.append_assoc]
  rw [hopening, read_value htarget, read_value_end, read_text hlabel, hlink, read_text htime, hcell,
    read_text hsize, hclosing]
  simp [cells]

lemma parentRow_eq : parentRow =
    rowText "../".toList "Parent Directory".toList ['-'] ['-'] := by
  decide

/-! ### Reading the body -/

/-- The rows of the body of a page. -/
def bodyRows (base : Text) (parent : Bool) (items : List Item) : List (List Tag) :=
  (if parent then [parentCells] else []) ++ items.map (itemCells base)

/-- The tags of a row, with those that open and close it. -/
def rowTags (row : List Tag) : List Tag := ⟨"tr".toList, []⟩ :: row ++ [⟨"/tr".toList, ['\n']⟩]

lemma read_row (base : Text) (i : Item) (t : Tag) (r : Text) :
    read .text t (row base i ++ r) =
      t :: ⟨"tr".toList, []⟩ :: itemCells base i ++ read .text ⟨"/tr".toList, ['\n']⟩ r := by
  exact read_rowText (unmarked_markup _) ((unmarked_markup _).append (bare_slash i).unmarked)
    (bare_timeText i).unmarked (bare_sizeText i).unmarked t r

lemma read_parentRow (t : Tag) (r : Text) :
    read .text t (parentRow ++ r) =
      t :: ⟨"tr".toList, []⟩ :: parentCells ++ read .text ⟨"/tr".toList, ['\n']⟩ r := by
  rw [parentRow_eq]
  exact read_rowText (by decide) (by decide) (by decide) (by decide) t r

lemma read_flatMap_row (base : Text) (items : List Item) (t : Tag) (r : Text) :
    read .text t (items.flatMap (row base) ++ '<' :: r) =
      t :: (items.map (itemCells base)).flatMap rowTags ++ read .tag ⟨[], []⟩ r := by
  induction items generalizing t with
  | nil => simp [read]
  | cons i items ih =>
    rw [List.flatMap_cons, List.append_assoc, read_row, ih]
    simp [rowTags]

/-- The body of a page is read as the rows that were written. -/
lemma read_body (base : Text) (parent : Bool) (items : List Item) (t : Tag) (r : Text) :
    read .text t ((if parent then parentRow else []) ++ (items.flatMap (row base) ++ '<' :: r)) =
      t :: (bodyRows base parent items).flatMap rowTags ++ read .tag ⟨[], []⟩ r := by
  cases parent with
  | false => exact read_flatMap_row base items t r
  | true =>
    rw [if_pos rfl, read_parentRow, read_flatMap_row]
    simp [bodyRows, rowTags]

/-! ### What stands before the body -/

/-- A part of a page that leads from between two tags to between two tags and in which the body of
the table does not begin. -/
def Passed (s : Text) : Prop :=
  ∀ t : Tag, t.inside ≠ "tbody".toList → ∃ (front : List Tag) (u : Tag),
    (∀ v ∈ front, v.inside ≠ "tbody".toList) ∧ u.inside ≠ "tbody".toList ∧
      ∀ r, read .text t (s ++ r) = front ++ read .text u r

lemma Passed.append {s s' : Text} (hs : Passed s) (hs' : Passed s') : Passed (s ++ s') := by
  intro t ht
  obtain ⟨front, u, hfront, hu, hread⟩ := hs t ht
  obtain ⟨front', u', hfront', hu', hread'⟩ := hs' u hu
  refine ⟨front ++ front', u', List.forall_mem_append.2 ⟨hfront, hfront'⟩, hu', fun r => ?_⟩
  rw [List.append_assoc, hread, hread', List.append_assoc]

lemma passed_of_unmarked {s : Text} (h : s.Unmarked) : Passed s :=
  fun t ht => ⟨[], ⟨t.inside, t.behind ++ s⟩, fun _ hv => absurd hv List.not_mem_nil, ht,
    read_text h t⟩

lemma passed_headOpening : Passed headOpening := by
  refine fun t ht => ⟨[t, ⟨"!DOCTYPE html".toList, ['\n']⟩,
    ⟨"html xmlns=\"http://www.w3.org/1999/xhtml\" lang=\"en\"".toList, ['\n']⟩,
    ⟨"head".toList, ['\n']⟩, ⟨"meta charset=\"utf-8\"/".toList, ['\n']⟩],
    ⟨"title".toList, "Directory: ".toList⟩, List.forall_mem_cons.2 ⟨ht, by decide⟩, by decide,
    fun r => ?_⟩
  unfold headOpening
  simp [read]

lemma passed_headMiddle : Passed headMiddle := by
  refine fun t ht => ⟨[t, ⟨"/title".toList, ['\n']⟩, ⟨"/head".toList, ['\n']⟩,
    ⟨"body".toList, ['\n']⟩], ⟨"h1".toList, "Directory: ".toList⟩,
    List.forall_mem_cons.2 ⟨ht, by decide⟩, by decide, fun r => ?_⟩
  unfold headMiddle
  simp [read]

lemma passed_headClosing : Passed headClosing := by
  refine fun t ht => ⟨[t, ⟨"/h1".toList, ['\n']⟩, ⟨"table".toList, ['\n']⟩,
    ⟨"thead".toList, ['\n']⟩], ⟨"tr".toList, []⟩, List.forall_mem_cons.2 ⟨ht, by decide⟩,
    by decide, fun r => ?_⟩
  unfold headClosing
  simp [read]

lemma passed_heading (arr : Arrangement) {label : Text} (hlabel : label.Unmarked)
    (column : Column) {key : Char} (hkey : key ∉ marks) :
    Passed (heading arr label column key) := by
  intro t ht
  have hopening : ∀ r, read .text t ("<th><a href=\"?C=".toList ++ r) =
      t :: ⟨"th".toList, []⟩ :: read (.value '"') ⟨"a href=\"?C=".toList, []⟩ r :=
    fun _ => by simp [read]
  have hclosing : ∀ (u : Tag) r, read .text u ("</a></th>".toList ++ r) =
      u :: ⟨"/a".toList, []⟩ :: read .text ⟨"/th".toList, []⟩ r := fun _ _ => by simp [read]
  unfold heading
  generalize horder : (if column = arr.column ∧ arr.descending = false then 'D' else 'A') = order
  have hvalue : Unmarked (key :: ("&amp;O=".toList ++ [order])) := by
    refine List.forall_mem_cons.2 ⟨hkey, Unmarked.append (by decide) ?_⟩
    rw [← horder]
    split <;> decide
  refine ⟨[t, ⟨"th".toList, []⟩,
    ⟨"a href=\"?C=".toList ++ key :: ("&amp;O=".toList ++ [order]) ++ ['"'], label⟩,
    ⟨"/a".toList, []⟩], ⟨"/th".toList, []⟩, List.forall_mem_cons.2 ⟨ht, by simp⟩, by decide,
    fun r => ?_⟩
  have hshape : key :: ("&amp;O=".toList ++ order :: ("\">".toList ++ label ++
      "</a></th>".toList)) ++ r = key :: ("&amp;O=".toList ++ [order]) ++
        ("\">".toList ++ (label ++ ("</a></th>".toList ++ r))) := by
    simp only [List.append_assoc, List.cons_append, List.nil_append]
  rw [List.append_assoc, hshape, hopening, read_value hvalue, read_value_end, read_text hlabel,
    hclosing]
  simp only [List.append_assoc, List.cons_append, List.nil_append]

lemma passed_headings (arr : Arrangement) : Passed (headings arr) :=
  ((passed_heading arr (by decide) .name (by decide)).append
    (passed_heading arr (by decide) .modified (by decide))).append
      (passed_heading arr (by decide) .size (by decide))

/-- **Nothing before the body of the table** says where the body begins. -/
lemma exists_read_front (base : Text) (arr : Arrangement) :
    ∃ front, (∀ t ∈ front, t.inside ≠ "tbody".toList) ∧ ∀ r,
      read .text ⟨[], []⟩ (headOpening ++ markup base ++ headMiddle ++ markup base ++ headClosing ++
        headings arr ++ bodyOpening ++ r) = front ++ read .text ⟨"tbody".toList, ['\n']⟩ r := by
  have hbase : Passed (markup base) := passed_of_unmarked (unmarked_markup base)
  have hhead : Passed (headOpening ++ markup base ++ headMiddle ++ markup base ++ headClosing ++
      headings arr) :=
    ((((passed_headOpening.append hbase).append passed_headMiddle).append hbase).append
      passed_headClosing).append (passed_headings arr)
  have hbody : ∀ (t : Tag) r, read .text t (bodyOpening ++ r) =
      t :: ⟨"/tr".toList, ['\n']⟩ :: ⟨"/thead".toList, ['\n']⟩ ::
        read .text ⟨"tbody".toList, ['\n']⟩ r := fun t r => by
    unfold bodyOpening
    simp [read]
  obtain ⟨front, u, hfront, hu, hread⟩ := hhead ⟨[], []⟩ (by decide)
  refine ⟨front ++ [u, ⟨"/tr".toList, ['\n']⟩, ⟨"/thead".toList, ['\n']⟩],
    List.forall_mem_append.2 ⟨hfront, List.forall_mem_cons.2 ⟨hu, by decide⟩⟩, fun r => ?_⟩
  rw [List.append_assoc _ bodyOpening, hread, hbody, List.append_assoc]
  rfl

/-! ### The rows of the page -/

lemma rowsIn_append {front : List Tag} (h : ∀ t ∈ front, t.inside ≠ "tr".toList)
    (rest : List Tag) : rowsIn (front ++ rest) = rowsIn rest := by
  induction front with
  | nil => rfl
  | cons t front ih =>
    rw [List.forall_mem_cons] at h
    rw [List.cons_append, rowsIn, if_neg h.1, ih h.2]

lemma inside_of_mem_bodyRows {base : Text} {parent : Bool} {items : List Item} {row : List Tag}
    (hr : row ∈ bodyRows base parent items) :
    ∀ t ∈ row, t.inside ≠ "tr".toList ∧ t.inside ≠ "/tr".toList := by
  have hcells : ∀ target label time size, ∀ t ∈ cells target label time size,
      t.inside ≠ "tr".toList ∧ t.inside ≠ "/tr".toList := by
    intro target label time size
    simp [cells]
  rcases List.mem_append.1 hr with hr | hr
  · split at hr
    · obtain rfl := List.mem_singleton.1 hr
      exact hcells _ _ _ _
    · exact absurd hr List.not_mem_nil
  · obtain ⟨i, -, rfl⟩ := List.mem_map.1 hr
    exact hcells _ _ _ _

lemma rowsIn_flatMap {table : List (List Tag)}
    (h : ∀ row ∈ table, ∀ t ∈ row, t.inside ≠ "tr".toList ∧ t.inside ≠ "/tr".toList)
    (rest : List Tag) : rowsIn (table.flatMap rowTags ++ rest) = table ++ rowsIn rest := by
  induction table with
  | nil => rfl
  | cons row table ih =>
    rw [List.forall_mem_cons] at h
    have htake : (row ++ ⟨"/tr".toList, ['\n']⟩ :: (table.flatMap rowTags ++ rest)).takeWhile
        (·.inside ≠ "/tr".toList) = row := by
      rw [List.takeWhile_append_of_pos fun t ht => decide_eq_true (h.1 t ht).2,
        List.takeWhile_cons_of_neg (by simp), List.append_nil]
    simp only [List.flatMap_cons, rowTags, List.cons_append, List.append_assoc, List.nil_append]
    rw [rowsIn, if_pos rfl, htake, rowsIn_append fun t ht => (h.1 t ht).1, rowsIn,
      if_neg (by decide), ih h.2]

lemma rows_page (base : Text) (parent : Bool) (arr : Arrangement) (items : List Item) :
    rows (page base parent arr (items.flatMap (row base))) = bodyRows base parent items := by
  obtain ⟨front, hfront, hread⟩ := exists_read_front base arr
  have hpage : page base parent arr (items.flatMap (row base)) =
      headOpening ++ markup base ++ headMiddle ++ markup base ++ headClosing ++ headings arr ++
        bodyOpening ++ ((if parent then parentRow else []) ++ (items.flatMap (row base) ++
          '<' :: "/tbody>\n</table>\n</body>\n</html>\n".toList)) := by
    unfold page
    simp only [List.append_assoc]
    rfl
  -- what stands behind the body holds no row
  obtain ⟨closing, hnone, hclosing⟩ : ∃ closing, rowsIn closing = [] ∧
      read .tag ⟨[], []⟩ "/tbody>\n</table>\n</body>\n</html>\n".toList = closing :=
    ⟨_, by decide, rfl⟩
  calc rows (page base parent arr (items.flatMap (row base)))
      = rowsIn ((front ++ ⟨"tbody".toList, ['\n']⟩ ::
          ((bodyRows base parent items).flatMap rowTags ++ closing)).dropWhile
            (·.inside ≠ "tbody".toList)) := by
        rw [rows, hpage, hread, read_body, hclosing, List.cons_append]
    _ = rowsIn ((bodyRows base parent items).flatMap rowTags ++ closing) := by
        rw [List.dropWhile_append_of_pos fun t ht => decide_eq_true (hfront t ht),
          List.dropWhile_cons_of_neg (by simp), rowsIn, if_neg (by decide)]
    _ = bodyRows base parent items := by
        rw [rowsIn_flatMap fun _ hr => inside_of_mem_bodyRows hr, hnone, List.append_nil]

/-- **The rows of a page** show the items that it was written for. -/
theorem exists_rows_of_page? {base : Text} {parent : Bool} {arr : Arrangement} {items : List Item}
    {listing : Text} (h : page? base parent arr items = some listing) :
    ∃ shown, rows listing = (if parent then [parentCells] else []) ++ shown ∧
      List.Forall₂ (Shows base) items shown := by
  obtain ⟨hi, hl⟩ := page?_eq_some_iff.1 h
  refine ⟨items.map (itemCells base), hl ▸ rows_page base parent arr items, ?_⟩
  rw [List.forall₂_map_right_iff, List.forall₂_same]
  exact fun i hm => ⟨_, timeText?_eq_some_iff.2 ⟨hi i hm, rfl⟩, rfl⟩

end Docroot.Listing
