import Mathlib.Tactic.Common
import Docroot.Proofs.Answer

/-!
The file that a path leads to, and the forms that it may be sent in: the file itself, and the files
beside it that have the ending of a format. A delivery sends one form, that which the accepted
codings call for.
-/

namespace Docroot

/-- A file of the tree, under a name that leads to it. -/
structure Stored (t : Tree) where
  name : Text
  place : Place
  data : Bytes
  modified : Timestamp
  stat : t.stat name = .ok (place, ⟨.file data, modified⟩)

namespace Stored

variable {t : Tree}

/-- What is known of the file before its bytes are read. -/
def resource (file : Stored t) : Resource :=
  FileLookup.resourceOf file.name file.place.name ⟨.file file.data, file.modified⟩

lemma lastModified_resource (file : Stored t) :
    file.resource.lastModified =
      match HttpDate.format? file.modified with
      | some date => .ok (some date)
      | none => .error .undatable := rfl

lemma eq_of_name {file file' : Stored t} (h : file.name = file'.name) : file = file' := by
  obtain ⟨name, place, data, modified, hs⟩ := file
  obtain ⟨name', place', data', modified', hs'⟩ := file'
  obtain rfl : name = name' := h
  rw [hs] at hs'
  cases hs'
  rfl

end Stored

namespace Site

open Service

variable {site : Site} {t : Tree} {raw : Text}

/-- The file that a raw path leads to, itself or as the welcome file of a directory. -/
structure Base (site : Site) (t : Tree) (raw : Text) where
  path : Text
  target : Text
  found : Found
  place : Place
  data : Bytes
  modified : Timestamp
  regular : RequestPath.normalize? raw = some path
  aim : ∀ query, aim (site.service t) path query = .ok (some (.file target found))
  stat : t.stat (FileLookup.nameOf site.root target) = .ok (place, ⟨.file data, modified⟩)
  resource : found.resource = FileLookup.resourceOf (FileLookup.nameOf site.root target) place.name
    ⟨.file data, modified⟩

/-- A path that leads to a file has a base, whatever the query is. -/
lemma exists_base_of_aim {query : Option Text} {path target : Text} {found : Found}
    (hp : RequestPath.normalize? raw = some path)
    (ha : aim (site.service t) path query = .ok (some (.file target found))) :
    ∃ o : site.Base t raw, o.path = path ∧ o.target = target ∧ o.found = found := by
  obtain ⟨hfinds, hdir⟩ := finds_of_leads (leads_of_aim _ ha)
  obtain ⟨place, data, modified, hs, -, hres⟩ := hfinds.holds.exists_file hdir
  have haim : ∀ query', aim (site.service t) path query' = .ok (some (.file target found)) := by
    intro query'
    rcases aim_congr (site.service t) path query query' with hq | ⟨reply, hq⟩
    · rw [hq, ha]
    · rw [ha] at hq
      cases hq
  exact ⟨⟨path, target, found, place, data, modified, hp, haim, hs, hres⟩, rfl, rfl, rfl⟩

lemma exists_delivery_of_body {b : Text} {arrival : Arrival} {r : Request} {n : Negotiator}
    {reply : Reply} (h : (site.handle t b arrival r n).1.result = .ok reply)
    (hb : ∃ name segments size, reply.body = .file name segments size) :
    ∃ o : site.Base t r.path, delivery (site.service t) (r.inquiry b o.path)
      (consulted (r.headers.lines HeaderName.acceptEncoding) o.found n).1 o.target o.found =
        .ok reply := by
  obtain ⟨name, segments, size, hb⟩ := hb
  cases answers_of_handle site t b arrival n h with
  | bare hbare => exact absurd hb (hbare.held name segments size)
  | listing _ _ _ hl => exact absurd hb (held_of_listingReply hl name segments size)
  | file _ hp ha _ hd =>
    obtain ⟨o, rfl, rfl, rfl⟩ := exists_base_of_aim hp ha
    exact ⟨o, hd⟩

/-- A path leads to one file at most. -/
instance : Subsingleton (site.Base t raw) where
  allEq := by
    rintro ⟨path, target, found, place, data, modified, hp, ha, hs, hr⟩
      ⟨path', target', found', place', data', modified', hp', ha', hs', hr'⟩
    rw [hp] at hp'
    cases hp'
    have haim := (ha none).symm.trans (ha' none)
    cases haim
    rw [hs] at hs'
    cases hs'
    rfl

namespace Base

variable (o : site.Base t raw)

def stored : Stored t := ⟨FileLookup.nameOf site.root o.target, o.place, o.data, o.modified, o.stat⟩

/-- The files that may be sent for a path: the base itself, and beside it, at or below the root, one
whose name has the ending of a format. -/
inductive Form : Option Format → Stored t → Prop
  | base : Form none o.stored
  | sibling {f : Format} {file : Stored t} (hf : f ∈ site.settings.resources.formats)
      (hn : file.name = FileLookup.nameOf site.root (o.target ++ f.extension))
      (hw : PathName.within site.root file.place.name = true) : Form (some f) file

lemma kind_found : o.found.kind = CompressedLookup.kindWith .plain (site.forms t o.target) := by
  obtain ⟨hf, hd⟩ := lookup_of_leads (leads_of_aim _ (o.aim none))
  obtain ⟨-, hk⟩ := eq_of_lookup hf
  simpa [hd] using hk

variable {o}

lemma exists_form_iff {f : Format} {v : Variant} (hf : f ∈ site.settings.resources.formats) :
    CompressedLookup.form? (site.files t) o.target f = some v ↔
      ∃ file, o.Form (some f) file ∧ v = ⟨f, file.resource⟩ := by
  constructor
  · intro h
    have hv : v ∈ site.forms t o.target := List.mem_filterMap.2 ⟨f, hf, h⟩
    obtain ⟨-, hd, hh⟩ := holds_of_mem_forms hv
    obtain ⟨rfl, -, -⟩ := CompressedLookup.form?_eq_some h
    obtain ⟨place, data, modified, hs, hw, hr⟩ := hh.exists_file hd
    exact ⟨⟨_, place, data, modified, hs⟩, .sibling hf rfl hw, by rw [Stored.resource, ← hr]⟩
  · rintro ⟨file, hform, rfl⟩
    cases hform with
    | sibling _ hn hw =>
      have hs := file.stat
      rw [hn] at hs
      have hl : (site.files t (o.target ++ f.extension)).result =
          .ok (some ⟨file.resource, .plain⟩) := by
        obtain ⟨hfound, hdir⟩ := lookup_of_leads (leads_of_aim _ (o.aim none))
        obtain ⟨x, hx⟩ := exists_files_of_lookup hfound hdir hf
        rw [hx, FileLookup.result_lookup_of_stat hs hw hx, Stored.resource, hn]
      unfold CompressedLookup.form?
      rw [hl]
      rfl

lemma Form.mem_formats {f : Format} {file : Stored t} (h : o.Form (some f) file) :
    f ∈ site.settings.resources.formats := by
  cases h
  assumption

lemma mem_forms_iff {v : Variant} :
    v ∈ site.forms t o.target ↔ ∃ f file, o.Form (some f) file ∧ v = ⟨f, file.resource⟩ := by
  unfold forms
  rw [List.mem_filterMap]
  constructor
  · rintro ⟨f, hf, hv⟩
    exact ⟨f, (exists_form_iff hf).1 hv⟩
  · rintro ⟨f, file, hform, rfl⟩
    exact ⟨f, hform.mem_formats, (exists_form_iff hform.mem_formats).2 ⟨file, hform, rfl⟩⟩

lemma variant?_eq (order : List Text) :
    variant? order o.found = chosen order (site.forms t o.target) := by
  unfold variant?
  rw [o.kind_found]
  cases site.forms t o.target with
  | nil => exact (chosen_nil order).symm
  | cons v vs => rfl

lemma exists_sent (o : site.Base t raw) (order : List Text) :
    ∃ file, o.Form ((variant? order o.found).map Variant.format) file ∧
      (sent (site.service t) order o.target o.found).1 = file.resource := by
  rw [sent_eq]
  cases hv : variant? order o.found with
  | none => exact ⟨o.stored, .base, o.resource⟩
  | some v =>
    rw [variant?_eq] at hv
    obtain ⟨f, file, hfile, rfl⟩ := mem_forms_iff.1 (mem_of_chosen hv)
    exact ⟨file, hfile, rfl⟩

lemma exists_sibling_iff (o : site.Base t raw) :
    (∃ f file, o.Form (some f) file) ↔ ∃ vs, o.found.kind = .compressible vs := by
  rw [o.kind_found]
  simp only [CompressedLookup.kindWith_plain_eq_compressible]
  constructor
  · rintro ⟨f, file, hform⟩
    exact ⟨_, List.ne_nil_of_mem (mem_forms_iff.2 ⟨f, file, hform, rfl⟩), rfl⟩
  · rintro ⟨-, h, -⟩
    obtain ⟨v, hv⟩ := List.exists_mem_of_ne_nil _ h
    obtain ⟨f, file, hfile, -⟩ := mem_forms_iff.1 hv
    exact ⟨f, file, hfile⟩

lemma exists_form_of_delivery (o : site.Base t raw) {q : Inquiry} {order : List Text}
    {reply : Reply} (h : delivery (site.service t) q order o.target o.found = .ok reply) :
    ∃ file date, o.Form ((variant? order o.found).map Variant.format) file ∧
      HttpDate.format? file.modified = some date ∧
      reply = Delivery.replyFor site.options q.boundary q.headOnly file.resource file.name
        (some date) (sent (site.service t) order o.target o.found).2
        (Delivery.selection site.options (q.headers.lines HeaderName.range) file.resource) := by
  obtain ⟨file, hform, hsent⟩ := exists_sent o order
  have hs : (sent (site.service t) order o.target o.found).1.source = .file file.name := by
    rw [hsent]
    rfl
  rw [delivery_eq hs, hsent, file.lastModified_resource] at h
  cases hdate : HttpDate.format? file.modified with
  | none =>
    rw [hdate] at h
    cases h
  | some date =>
    rw [hdate] at h
    cases h
    exact ⟨file, date, hform, hdate, rfl⟩

end Base

end Site

end Docroot
