import Mathlib.Tactic.Common
import Docroot.Proofs.Acceptance

/-!
What becomes of the wish for a resource as it is. The plain resource is no choice among others: it
is sent where no accepted element stands for a form of it. So who lists `identity` before a coding
still gets that coding, if it is accepted at all; and an element that stands for no form can be left
out.
-/

namespace Docroot

/-- The name of the coding that leaves a resource as it is. -/
def Quality.identity : Text := "identity".toList

/-- The request lists the plain resource with the quality `q`, and each element that names the
coding with a lower one, or each star if no element names it. -/
structure Request.PrefersPlain (r : Request) (coding : Text) (q : Nat) : Prop where
  listed : ∃ i ∈ r.encodings, i.token = Quality.identity ∧ i.quality = q
  accepted : 0 < q
  named : ∀ i ∈ r.encodings, i.names coding = true → i.quality < q
  starred : (∀ i ∈ r.encodings, i.names coding = false) →
    ∀ i ∈ r.encodings, i.token = ['*'] → i.quality < q

namespace Negotiator

variable {preferred lines lines' : List Text} {token : Text}

/-- Where the elements with one token are left out, it is missing from the codings, and nothing else
changes. -/
lemma codings_of_filter (h : Quality.parse (key lines') =
    (Quality.parse (key lines)).filter fun i => i.token != token) :
    codings preferred lines' = (codings preferred lines).filter fun other => other != token := by
  rw [codings_eq_orderOf, codings_eq_orderOf, orderOf, orderOf, h, List.filter_map]
  congr 1
  rw [List.filter_comm]
  exact ((ranks_comesBefore preferred).filter_sort _ _).symm

end Negotiator

namespace Service

variable {variants : List Variant} {token : Text}

lemma chosen_filter (h : ¬ Variant.Names variants token) (order : List Text) :
    chosen (order.filter fun other => other != token) variants = chosen order variants := by
  unfold chosen
  induction order with
  | nil => rfl
  | cons other order ih =>
    rw [List.filter_cons, List.findSome?_cons]
    by_cases ho : other = token
    · subst ho
      rw [Variant.select?_eq_none_iff.2 h]
      simpa using ih
    · simp only [bne_iff_ne, ne_eq, ho, not_false_eq_true, if_true, List.findSome?_cons, ih]

end Service

namespace Site

open Service

variable {site : Site} {t : Tree}

namespace Base

variable {raw : Text} (o : site.Base t raw)

/-- The token stands for a form beside the base: it is exactly the coding of one, or it is a star
and there is one. -/
def Offers (token : Text) : Prop :=
  ∃ f file, o.Form (some f) file ∧ (token = ['*'] ∨ f.encoding = token)

lemma names_forms_iff (token : Text) :
    Variant.Names (site.forms t o.target) token ↔ o.Offers token := by
  constructor
  · rintro (⟨hstar, hne⟩ | ⟨v, hv, hname⟩)
    · obtain ⟨v, hv⟩ := List.exists_mem_of_ne_nil _ hne
      obtain ⟨f, file, hform, -⟩ := mem_forms_iff.1 hv
      exact ⟨f, file, hform, Or.inl hstar⟩
    · obtain ⟨f, file, hform, rfl⟩ := mem_forms_iff.1 hv
      exact ⟨f, file, hform, Or.inr hname⟩
  · rintro ⟨f, file, hform, hname⟩
    have hv := mem_forms_iff.2 ⟨f, file, hform, rfl⟩
    rcases hname with hstar | hname
    · exact Or.inl ⟨hstar, List.ne_nil_of_mem hv⟩
    · exact Or.inr ⟨_, hv, hname⟩

/-- **The plain resource** is what is left where no accepted element stands for a form. -/
theorem variant?_accepted_eq_none_iff (r : Request) :
    variant? (site.accepted r.headers o.found) o.found = none ↔
      ∀ i ∈ r.encodings, 0 < i.quality → ¬ o.Offers i.token := by
  rw [variant?_eq, ← Variant.calls_iff, Variant.calls_none_iff]
  simp only [names_forms_iff]
  by_cases hk : ∃ vs, o.found.kind = .compressible vs
  · obtain ⟨vs, hk⟩ := hk
    have haccepted : site.accepted r.headers o.found =
        Negotiator.codings site.preferred (r.headers.lines HeaderName.acceptEncoding) := by
      unfold accepted
      rw [hk]
    rw [haccepted]
    constructor
    · exact fun h i hi hq => h i.token (Negotiator.mem_codings_iff.2 ⟨i, hi, rfl, hq⟩)
    · intro h token ht
      obtain ⟨i, hi, rfl, hq⟩ := Negotiator.mem_codings_iff.1 ht
      exact h i hi hq
  · have hno : ∀ token, ¬ o.Offers token := by
      rintro token ⟨f, file, hform, -⟩
      exact hk (o.exists_sibling_iff.1 ⟨f, file, hform⟩)
    exact iff_of_true (fun _ _ => hno _) (fun _ _ _ => hno _)

end Base

/-! ### Elements that stand for nothing -/

variable {r r' : Request} {coding : Text}

lemma accepted_of_filter (he : r'.encodings = r.encodings.filter fun i => i.token != coding)
    (found : Found) : site.accepted r'.headers found =
      (site.accepted r.headers found).filter fun token => token != coding := by
  unfold accepted
  cases found.kind with
  | compressible vs => exact Negotiator.codings_of_filter he
  | plain => rfl
  | welcome => rfl

/-- What is made of where the path leads is the same without the elements that stand for nothing. -/
lemma concluded_of_filter (h : r.AlikeBut HeaderName.acceptEncoding r')
    (he : r'.encodings = r.encodings.filter fun i => i.token != coding)
    (hn : ∀ o : site.Base t r.path, ¬ o.Offers coding) (b : Text) {path : Text}
    (hp : RequestPath.normalize? r.path = some path) {a : Aim}
    (ha : aim (site.service t) path r.query = .ok (some a)) :
    site.concluded t (r'.inquiry b path) a = site.concluded t (r.inquiry b path) a := by
  cases a with
  | fixed reply => rfl
  | listing directory =>
    show judged _ r'.headers directory (listingReply _ (r'.inquiry b path) directory) =
      judged _ r.headers directory (listingReply _ (r.inquiry b path) directory)
    rw [judged_of_alike h (by decide), listingReply_of_alike h b b path directory]
  | file target found =>
    obtain ⟨o, -, rfl, rfl⟩ := exists_base_of_aim hp ha
    have hsent : sent (site.service t) (site.accepted r'.headers o.found) o.target o.found =
        sent (site.service t) (site.accepted r.headers o.found) o.target o.found := by
      rw [sent_eq, sent_eq, o.variant?_eq, o.variant?_eq, accepted_of_filter he,
        chosen_filter ((o.names_forms_iff coding).not.2 (hn o))]
    show judged _ r'.headers o.found.resource
        (delivery _ (r'.inquiry b path) (site.accepted r'.headers o.found) o.target o.found) =
      judged _ r.headers o.found.resource
        (delivery _ (r.inquiry b path) (site.accepted r.headers o.found) o.target o.found)
    rw [judged_of_alike h (by decide), delivery_of_alike h (by decide) b path]
    unfold delivery
    rw [hsent]

/-- **Elements that stand for nothing** can be left out of the header lines, and the reply is the
same. -/
theorem reply_of_filter (h : r.AlikeBut HeaderName.acceptEncoding r')
    (he : r'.encodings = r.encodings.filter fun i => i.token != coding)
    (hn : ∀ o : site.Base t r.path, ¬ o.Offers coding) (b : Text) :
    site.reply t b r' = site.reply t b r := by
  unfold reply
  rw [← h.method, ← h.path]
  cases methodReply r.method with
  | some x => rfl
  | none =>
    cases hp : RequestPath.normalize? r.path with
    | none => rfl
    | some path =>
      have haim : aim (site.service t) (r.inquiry b path).path (r.inquiry b path).query =
          aim (site.service t) path r.query := rfl
      have haim' : aim (site.service t) (r'.inquiry b path).path (r'.inquiry b path).query =
          aim (site.service t) path r.query := by
        rw [h.query]
        rfl
      simp only [answered, haim, haim']
      cases ha : aim (site.service t) path r.query with
      | error e => rfl
      | ok found =>
        cases found with
        | none => rfl
        | some a => simp only [concluded_of_filter h he hn b hp ha]

/-- **The wish for the plain resource**: what is sent is the base or a form beside it, and it is the
base just when no accepted element stands for a form. So a coding is sent to who prefers the base to
it only if an element with a lower quality accepts it, or if a star is accepted, for the first
format that there is a file of. Listing `identity` makes no difference, unless that is the coding of
a form. -/
theorem plain_iff_of_encodings {n : Negotiator} (hn : site.Reachable n) {b : Text}
    {arrival : Arrival} {r : Request} {reply : Reply}
    (h : (site.handle t b arrival r n).1.result = .ok reply)
    (hbody : ∃ name segments size, reply.body = .file name segments size) :
    ∃ o : site.Base t r.path, ∃ form file, o.Form form file ∧
      (∃ segments size, reply.body = .file file.name segments size) ∧
      (form = none ↔ ∀ i ∈ r.encodings, 0 < i.quality → ¬ o.Offers i.token) ∧
      (∀ f q, form = some f → r.PrefersPlain f.encoding q →
        (∃ i ∈ r.encodings, i.token = f.encoding ∧ 0 < i.quality ∧ i.quality < q) ∨
          r.AcceptsAny ∧ ∃ before after, site.settings.resources.formats = before ++ f :: after ∧
            ∀ g ∈ before, ∀ file, ¬ o.Form (some g) file) ∧
      (¬ o.Offers Quality.identity → ∀ r' : Request, r.AlikeBut HeaderName.acceptEncoding r' →
        (r'.encodings = r.encodings.filter fun i => i.token != Quality.identity) →
        ∀ n', site.Reachable n' → ∀ arrival',
          (site.handle t b arrival' r' n').1.result = .ok reply) := by
  obtain ⟨o, hd⟩ := exists_delivery_of_body h hbody
  rw [hn.consulted] at hd
  obtain ⟨file, date, hform, -, rfl⟩ := o.exists_form_of_delivery hd
  obtain ⟨name, segments, size, hbody⟩ := hbody
  obtain ⟨rfl, -⟩ := Delivery.eq_of_bodyFor _ _ _ _ _ hbody
  refine ⟨o, _, file, hform, ⟨segments, size, hbody⟩, ?_, fun f q hf hprefers => ?_,
    fun hoffers r' halike he n' hn' arrival' => ?_⟩
  · rw [Option.map_eq_none_iff, o.variant?_accepted_eq_none_iff]
  · obtain ⟨v, hv, rfl⟩ := Option.map_eq_some_iff.1 hf
    rw [Base.variant?_eq] at hv
    -- the form was chosen by its name or by a star
    rcases exists_token_of_chosen hv with hname | ⟨hstar, hhead⟩
    · obtain ⟨i, hi, ht, hq⟩ := exists_item_of_mem_accepted hname
      have hnames : i.names v.format.encoding = true := by
        simp [Quality.Item.names, Text.sameLetters, ht]
      exact Or.inl ⟨i, hi, ht, hq, hprefers.named i hi hnames⟩
    · exact Or.inr ⟨exists_item_of_mem_accepted hstar, Base.exists_append_of_head? hhead⟩
  · have hno : ∀ o' : site.Base t r.path, ¬ o'.Offers Quality.identity := by
      intro o'
      rw [Subsingleton.elim o' o]
      exact hoffers
    rw [hn'.result_handle, reply_of_filter halike he hno, ← hn.result_handle t b arrival r]
    exact h

def plainRequest : Request :=
  Sample.request [(HeaderName.acceptEncoding, Text.utf8 "identity, gzip;q=0.5".toList)]

def gzipRequest : Request :=
  Sample.request [(HeaderName.acceptEncoding, Text.utf8 "gzip;q=0.5".toList)]

lemma alikeBut_gzipRequest : plainRequest.AlikeBut HeaderName.acceptEncoding gzipRequest where
  method := rfl
  path := rfl
  query := rfl
  headers := by
    intro m hm
    have hadd := fun value => ((Sample.request []).alikeBut_withLines HeaderName.acceptEncoding
      [Text.utf8 value]).headers m hm
    exact (hadd "identity, gzip;q=0.5".toList).symm.trans (hadd "gzip;q=0.5".toList)

theorem plain_iff_of_encodings_sample :
    ∃ reply, (Sample.site.handle (Sample.tree ⟨0⟩) [] Sample.arrival plainRequest
        Sample.site.negotiator).1.result = .ok reply ∧
      (Sample.site.handle (Sample.tree ⟨0⟩) [] Sample.arrival gzipRequest
        Sample.site.negotiator).1.result = .ok reply ∧
      ∃ o : Sample.site.Base (Sample.tree ⟨0⟩) "/a.txt".toList, ∃ form file, o.Form form file ∧
        (∃ segments size, reply.body = .file file.name segments size) ∧
        (form = none ↔ ∀ i ∈ plainRequest.encodings, 0 < i.quality → ¬ o.Offers i.token) ∧
        ∀ f q, form = some f → plainRequest.PrefersPlain f.encoding q →
          (∃ i ∈ plainRequest.encodings, i.token = f.encoding ∧ 0 < i.quality ∧ i.quality < q) ∨
            plainRequest.AcceptsAny := by
  obtain ⟨reply, h, hbody, -⟩ := exists_gzipReply (Or.inr rfl)
  obtain ⟨o, form, file, hform, hfile, hnone, hsome, hsame⟩ :=
    plain_iff_of_encodings .start h ⟨_, _, _, hbody⟩
  have hoffers : ¬ o.Offers Quality.identity := by
    rintro ⟨f, file, hf, hstar | hname⟩
    · exact absurd hstar (by decide)
    · have hformats : ∀ g ∈ Sample.site.settings.resources.formats,
          g.encoding ≠ Quality.identity := by decide
      cases hf with
      | sibling hf _ _ => exact hformats f hf hname
  exact ⟨reply, h, hsame hoffers gzipRequest alikeBut_gzipRequest (by decide +kernel) _ .start _, o,
    form, file, hform, hfile, hnone, fun f q hf hq => (hsome f q hf hq).imp_right And.left⟩

/-- A coding may be sent to who prefers the file as it is: this request accepts gzip with half the
quality, and gets it. -/
theorem coding_sent_for_plain :
    plainRequest.PrefersPlain Format.gzip.encoding 1000 ∧
      Format.gzip ∈ Sample.site.settings.resources.formats ∧
      ∃ reply, (Sample.site.handle (Sample.tree ⟨0⟩) [] Sample.arrival plainRequest
          Sample.site.negotiator).1.result = .ok reply ∧
        (∃ segments size, reply.body = .file (FileLookup.nameOf Sample.site.root
          (plainRequest.path ++ Format.gzip.extension)) segments size) ∧
        reply.headers.getAll HeaderName.contentEncoding = [Text.utf8 Format.gzip.encoding] := by
  obtain ⟨reply, h, hbody, hcoding⟩ := exists_gzipReply (Or.inr rfl)
  exact ⟨⟨by decide +kernel, by decide, by decide +kernel, by decide +kernel⟩, by decide, reply, h,
    ⟨_, _, hbody⟩, hcoding⟩

end Site

end Docroot
