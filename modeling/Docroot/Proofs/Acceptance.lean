import Mathlib.Tactic.Common
import Docroot.Proofs.Preference
import Docroot.Proofs.Presentation

/-!
Which codings a client gets. A compressed form is sent for an accepted element that names its
coding, or for a star. A refused coding is never sent for its name; it may still be sent for a star,
which stands for the first format that there is a file of.
-/

namespace Docroot

/-- Whether the element names the coding, in letters of any case. -/
def Quality.Item.names (i : Quality.Item) (coding : Text) : Bool :=
  Text.sameLetters i.token coding

namespace Request

def encodings (r : Request) : List Quality.Item :=
  Quality.parse (Negotiator.key (r.headers.lines HeaderName.acceptEncoding))

/-- Some element names the coding with quality 0, and none names it with a quality above 0. -/
structure Refuses (r : Request) (coding : Text) : Prop where
  refused : ∃ i ∈ r.encodings, i.names coding = true ∧ i.quality = 0
  never : ∀ i ∈ r.encodings, i.names coding = true → ¬ 0 < i.quality

/-- A star is among the elements, with a quality above 0. -/
def AcceptsAny (r : Request) : Prop := ∃ i ∈ r.encodings, i.token = ['*'] ∧ 0 < i.quality

end Request

namespace Service

lemma exists_token_of_chosen {order : List Text} {vs : List Variant} {v : Variant}
    (h : chosen order vs = some v) :
    v.format.encoding ∈ order ∨ ['*'] ∈ order ∧ vs.head? = some v := by
  obtain ⟨token, ht, hv⟩ := List.exists_of_findSome?_eq_some h
  obtain ⟨hnamed, before, after, rfl, hbefore⟩ := List.find?_eq_some_iff_append.1 hv
  by_cases hstar : token = ['*']
  · subst hstar
    right
    refine ⟨ht, ?_⟩
    cases before with
    | nil => rfl
    | cons u us =>
      -- a star would have named the form before
      have hu := hbefore u List.mem_cons_self
      simp [Format.isNamedBy] at hu
  · left
    have hname : v.format.encoding = token := by simpa [Format.isNamedBy, hstar] using hnamed
    exact hname ▸ ht

end Service

namespace Site

open Service

variable {site : Site} {t : Tree}

namespace Base

variable {raw : Text} {o : site.Base t raw}

lemma exists_append_of_head? {v : Variant} (h : (site.forms t o.target).head? = some v) :
    ∃ before after, site.settings.resources.formats = before ++ v.format :: after ∧
      ∀ g ∈ before, ∀ file, ¬ o.Form (some g) file := by
  unfold forms at h
  rw [List.head?_filterMap] at h
  obtain ⟨before, f, after, hsplit, hf, hbefore⟩ := List.findSome?_eq_some_iff.1 h
  obtain ⟨rfl, -⟩ := CompressedLookup.form?_eq_some hf
  refine ⟨before, after, hsplit, fun g hg file hfile => ?_⟩
  have hmem : g ∈ site.settings.resources.formats := hsplit ▸ List.mem_append_left _ hg
  have hform := (exists_form_iff hmem).2 ⟨file, hfile, rfl⟩
  rw [hbefore g hg] at hform
  cases hform

end Base

lemma exists_item_of_mem_accepted {r : Request} {found : Found} {token : Text}
    (h : token ∈ site.accepted r.headers found) :
    ∃ i ∈ r.encodings, i.token = token ∧ 0 < i.quality := by
  unfold accepted at h
  split at h
  · exact Negotiator.mem_codings_iff.1 h
  · exact absurd h List.not_mem_nil

/-- **Refused codings**: what a request is answered with is a form of the base, sent with its
coding. If the request refuses this coding, it accepts a star, and the form is that of the first
format that there is a file of. -/
theorem first_of_refuses {n : Negotiator} (hn : site.Reachable n) {b : Text} {arrival : Arrival}
    {r : Request} {reply : Reply} (h : (site.handle t b arrival r n).1.result = .ok reply)
    (hbody : ∃ name segments size, reply.body = .file name segments size) :
    ∃ o : site.Base t r.path, ∃ form file, o.Form form file ∧
      (∃ segments size, reply.body = .file file.name segments size) ∧
      ∀ f, form = some f →
        (∀ v, Headers.value? f.encoding = some v →
          reply.headers.getAll HeaderName.contentEncoding = [v]) ∧
        (r.Refuses f.encoding → r.AcceptsAny ∧
          ∃ before after, site.settings.resources.formats = before ++ f :: after ∧
            ∀ g ∈ before, ∀ file, ¬ o.Form (some g) file) := by
  obtain ⟨o, hd⟩ := exists_delivery_of_body h hbody
  rw [hn.consulted] at hd
  obtain ⟨file, date, hform, -, rfl⟩ := o.exists_form_of_delivery hd
  obtain ⟨name, segments, size, hbody⟩ := hbody
  obtain ⟨rfl, hsome⟩ := Delivery.eq_of_bodyFor _ _ _ _ _ hbody
  refine ⟨o, _, file, hform, ⟨segments, size, hbody⟩, fun f hf => ?_⟩
  obtain ⟨v, hv, rfl⟩ := Option.map_eq_some_iff.1 hf
  refine ⟨fun value hvalue => ?_, fun hr => ?_⟩
  · refine (Base.getAll_contentEncoding_sent hsome).trans ?_
    rw [hv, Option.bind_some, hvalue]
  · rw [Base.variant?_eq] at hv
    rcases exists_token_of_chosen hv with hname | ⟨hstar, hhead⟩
    · obtain ⟨i, hi, ht, hq⟩ := exists_item_of_mem_accepted hname
      exact absurd hq (hr.never i hi (by simp [Quality.Item.names, Text.sameLetters, ht]))
    · exact ⟨exists_item_of_mem_accepted hstar, Base.exists_append_of_head? hhead⟩

/-- A request that refuses gzip and accepts whatever else there is. -/
def starRequest : Request :=
  Sample.request [(HeaderName.acceptEncoding, Text.utf8 "gzip;q=0, *".toList)]

lemma exists_gzipReply {list : Text}
    (hl : list = "gzip;q=0, *".toList ∨ list = "identity, gzip;q=0.5".toList) :
    ∃ reply, (Sample.site.handle (Sample.tree ⟨0⟩) [] Sample.arrival
        (Sample.request [(HeaderName.acceptEncoding, Text.utf8 list)])
        Sample.site.negotiator).1.result = .ok reply ∧
      reply.body = .file "/srv/a.txt.gz".toList [.all] 32768 ∧
      reply.headers.getAll HeaderName.contentEncoding = [Text.utf8 "gzip".toList] := by
  obtain ⟨reply, h, hreply⟩ := Sample.exists_of_toOption
    (x := (Sample.site.handle (Sample.tree ⟨0⟩) [] Sample.arrival
      (Sample.request [(HeaderName.acceptEncoding, Text.utf8 list)])
      Sample.site.negotiator).1.result)
    (f := fun x => (x.body, x.headers.getAll HeaderName.contentEncoding))
    (b := (.file "/srv/a.txt.gz".toList [.all] 32768, [Text.utf8 "gzip".toList]))
    (by rcases hl with rfl | rfl <;> decide +kernel)
  exact ⟨reply, h, Prod.mk.inj hreply⟩

lemma exists_starReply :
    ∃ reply, (Sample.site.handle (Sample.tree ⟨0⟩) [] Sample.arrival starRequest
        Sample.site.negotiator).1.result = .ok reply ∧
      reply.body = .file "/srv/a.txt.gz".toList [.all] 32768 ∧
      reply.headers.getAll HeaderName.contentEncoding = [Text.utf8 "gzip".toList] :=
  exists_gzipReply (Or.inl rfl)

theorem first_of_refuses_sample :
    ∃ reply, (Sample.site.handle (Sample.tree ⟨0⟩) [] Sample.arrival starRequest
        Sample.site.negotiator).1.result = .ok reply ∧
      ∃ o : Sample.site.Base (Sample.tree ⟨0⟩) "/a.txt".toList, ∃ form file, o.Form form file ∧
        (∃ segments size, reply.body = .file file.name segments size) ∧
        ∀ f, form = some f → starRequest.Refuses f.encoding → starRequest.AcceptsAny := by
  obtain ⟨reply, h, hbody, -⟩ := exists_starReply
  obtain ⟨o, form, file, hform, hfile, hall⟩ := first_of_refuses .start h ⟨_, _, _, hbody⟩
  exact ⟨reply, h, o, form, file, hform, hfile, fun f hf hr => ((hall f hf).2 hr).1⟩

/-- A refused coding may be sent: the star of this request stands for gzip, which it refuses. -/
theorem refused_coding_sent :
    starRequest.Refuses Format.gzip.encoding ∧
      Format.gzip ∈ Sample.site.settings.resources.formats ∧
      ∃ reply, (Sample.site.handle (Sample.tree ⟨0⟩) [] Sample.arrival starRequest
          Sample.site.negotiator).1.result = .ok reply ∧
        (∃ segments size, reply.body = .file (FileLookup.nameOf Sample.site.root
          (starRequest.path ++ Format.gzip.extension)) segments size) ∧
        reply.headers.getAll HeaderName.contentEncoding = [Text.utf8 Format.gzip.encoding] := by
  obtain ⟨reply, h, hbody, hcoding⟩ := exists_starReply
  exact ⟨⟨by decide +kernel, by decide +kernel⟩, by decide, reply, h, ⟨_, _, hbody⟩, hcoding⟩

end Site

end Docroot
