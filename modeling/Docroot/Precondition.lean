import Docroot.EntityTag.Basic
import Docroot.EntityTag.List
import Docroot.Header.Map
import Docroot.Resource
import Docroot.Text.Split

/-!
Preconditions of a request. Entity tags are looked at first; dates decide only what the tags have
left open.
-/

namespace Docroot.Precondition

inductive Verdict
  | proceed
  | notModified (tag : Option Text)
  | failed
deriving DecidableEq

/-- All lines of a list header as one list. -/
def joined (headers : Headers) (name : Text) : Option Text :=
  match headers.lines name with
  | [] => none
  | lines => some (Text.joinWith ", ".toList lines)

/-- The first tag of a written list that stands for the content with the tag `own`. -/
def covering (own list : Text) : Except Abort (Option Text) :=
  match EntityTag.list? list with
  | some tags => .ok (tags.find? (EntityTag.covers own))
  | none =>
    .error (.failed (.malformedPrecondition ("malformed entity-tag list: ".toList ++ list)))

/-- What the tags of a request say, if they say anything. -/
def byTags (own : Text) (ifMatch ifNoneMatch : Option Text) : Except Abort (Option Verdict) := do
  let matched ← match ifMatch with
    | none => pure true
    | some list => (covering own list).map Option.isSome
  if !matched then return some .failed
  match ifNoneMatch with
  | none => return none
  | some list =>
    match ← covering own list with
    | some tag => return some (.notModified (some tag))
    | none => return some .proceed

/-- Whether a content is unchanged since the date of a request. A date that is written as the
content's own date is, is not read at all. -/
def unchangedSince (resource : Resource) (date : Text) : Except Abort Bool := do
  match resource.modified with
  | none => return false
  | some t =>
    -- the date is written out, and may fail to be, before anything is read
    let own ← resource.lastModified
    if own = some date then return true
    return (HttpDate.parse? date).any fun d => decide (t.epochSeconds ≤ d.epochSeconds)

def changedSince (resource : Resource) (date : Text) : Bool :=
  resource.modified.any fun t =>
    (HttpDate.parse? date).any fun d => decide (d.epochSeconds < t.epochSeconds)

/-- What the dates of a request say. A list of tags to match takes the place of the second. -/
def byDates (resource : Resource) (hasIfMatch : Bool)
    (ifModifiedSince ifUnmodifiedSince : Option Text) : Except Abort Verdict := do
  let unchanged ← match ifModifiedSince with
    | none => pure false
    | some date => unchangedSince resource date
  if unchanged then return .notModified none
  if !hasIfMatch && ifUnmodifiedSince.any (changedSince resource) then return .failed
  return .proceed

def evaluate (headers : Headers) (resource : Resource) (useTags : Bool) : Except Abort Verdict := do
  let ifMatch := joined headers HeaderName.ifMatch
  let decided ← match resource.tag with
    | some tag =>
      if useTags then
        byTags (EntityTag.withSuffix tag []) ifMatch (joined headers HeaderName.ifNoneMatch)
      else pure none
    | none => pure none
  match decided with
  | some verdict => return verdict
  | none =>
    byDates resource ifMatch.isSome (joined headers HeaderName.ifModifiedSince)
      (joined headers HeaderName.ifUnmodifiedSince)

end Docroot.Precondition
