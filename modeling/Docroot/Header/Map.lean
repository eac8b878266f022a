import Docroot.Text.Basic

/-!
Header fields: a list of names, in lower case, with their values, in the order in which they were
set. A name may have several values.
-/

namespace Docroot

abbrev Headers := List (Text × Bytes)

namespace Headers

def get? (h : Headers) (name : Text) : Option Bytes := (h.find? fun f => f.1 == name).map Prod.snd

def getAll (h : Headers) (name : Text) : List Bytes :=
  (h.filter fun f => f.1 == name).map Prod.snd

def contains (h : Headers) (name : Text) : Bool := h.any fun f => f.1 == name

def remove (h : Headers) (name : Text) : Headers := h.filter fun f => !(f.1 == name)

def put (h : Headers) (name : Text) (value : Bytes) : Headers := remove h name ++ [(name, value)]

def append (h : Headers) (name : Text) (value : Bytes) : Headers := h ++ [(name, value)]

/-- The values of a field that are visible ASCII, as texts. -/
def lines (h : Headers) (name : Text) : List Text := (getAll h name).filterMap Bytes.visible?

/-- The first value of a field, if it is visible ASCII. -/
def text? (h : Headers) (name : Text) : Option Text := (get? h name).bind Bytes.visible?

/-- The value that a text gives: no control character but the tab may occur in it. -/
def value? (s : Text) : Option Bytes :=
  if (Text.utf8 s).all fun b => (32 ≤ b && b != 127) || b == 9 then some (Text.utf8 s) else none

theorem getAll_append_list (h k : Headers) (name : Text) :
    (h ++ k : Headers).getAll name = h.getAll name ++ k.getAll name := by
  simp [getAll]

theorem getAll_singleton (name m : Text) (value : Bytes) :
    getAll [(name, value)] m = if name = m then [value] else [] := by
  by_cases h : name = m <;> simp [getAll, h]

theorem getAll_map (name : Text) (values : List Bytes) :
    getAll (values.map fun v => (name, v)) name = values := by
  induction values with
  | nil => rfl
  | cons v r ih =>
    rw [getAll] at ih
    simp [getAll, ih]

theorem getAll_map_of_ne {name m : Text} (h : name ≠ m) (values : List Bytes) :
    getAll (values.map fun v => (name, v)) m = [] := by
  induction values with
  | nil => rfl
  | cons v r ih =>
    rw [getAll] at ih
    simp [getAll, h, ih]

theorem getAll_remove (h : Headers) (name m : Text) :
    (h.remove name).getAll m = if name = m then [] else h.getAll m := by
  by_cases hm : name = m
  · subst hm
    simp [getAll, remove, List.filter_filter]
  · have hp : ∀ f ∈ h, ((f.1 == m) && !(f.1 == name)) = (f.1 == m) := by
      intro f _
      by_cases hf : f.1 = m
      · simp [hf, Ne.symm hm]
      · simp [hf]
    rw [getAll, remove, List.filter_filter, List.filter_congr hp, if_neg hm, getAll]

theorem getAll_put (h : Headers) (name m : Text) (value : Bytes) :
    (h.put name value).getAll m = if name = m then [value] else h.getAll m := by
  rw [put, getAll_append_list, getAll_remove, getAll_singleton]
  by_cases hm : name = m <;> simp [hm]

theorem contains_eq_not_isEmpty (h : Headers) (name : Text) :
    h.contains name = !(h.getAll name).isEmpty := by
  induction h with
  | nil => rfl
  | cons f r ih =>
    have hc : contains (f :: r) name = (f.1 == name || contains r name) := rfl
    by_cases hf : f.1 = name <;> simp_all [getAll]

end Headers

namespace HeaderName

def acceptEncoding : Text := "accept-encoding".toList
def acceptRanges : Text := "accept-ranges".toList
def allow : Text := "allow".toList
def cacheControl : Text := "cache-control".toList
def contentEncoding : Text := "content-encoding".toList
def contentLength : Text := "content-length".toList
def contentRange : Text := "content-range".toList
def contentType : Text := "content-type".toList
def etag : Text := "etag".toList
def ifMatch : Text := "if-match".toList
def ifModifiedSince : Text := "if-modified-since".toList
def ifNoneMatch : Text := "if-none-match".toList
def ifUnmodifiedSince : Text := "if-unmodified-since".toList
def lastModified : Text := "last-modified".toList
def location : Text := "location".toList
def range : Text := "range".toList
def referer : Text := "referer".toList
def userAgent : Text := "user-agent".toList
def vary : Text := "vary".toList

end HeaderName

end Docroot
