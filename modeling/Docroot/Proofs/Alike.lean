import Mathlib.Tactic.Common
import Docroot.Proofs.Forms
import Docroot.Proofs.Grounds

/-!
Requests that differ in the lines of one field. Their paths lead to one and the same file or
directory, so where both replies are about the content of a resource, they are about the content of
the same one: they are one listing, or they both deliver a form of the same file.
-/

namespace Docroot

/-- The reply is about the content of a resource: all of it, parts of it, or that there is none
where it was asked for. -/
def Reply.OfContent (reply : Reply) : Prop :=
  reply.status = 200 ∨ reply.status = 206 ∨ reply.status = 416

namespace Site

open Service

variable {site : Site} {t : Tree} {b : Text} {n : Negotiator} {r : Request} {reply : Reply}

lemma Grounds.listing_or_file (h : site.Grounds t b n r reply) (hs : reply.OfContent) :
    ∃ path, RequestPath.normalize? r.path = some path ∧
      ((∃ directory, aim (site.service t) path r.query = .ok (some (.listing directory)) ∧
          listingReply (site.service t) (r.inquiry b path) directory = .ok reply) ∨
        ∃ target found, aim (site.service t) path r.query = .ok (some (.file target found)) ∧
          delivery (site.service t) (r.inquiry b path)
            (consulted (r.headers.lines HeaderName.acceptEncoding) found n).1 target found =
              .ok reply) := by
  have hnot : reply.status ∉ [302, 400, 403, 404, 500] ∧ reply.status ≠ 304 ∧
      reply.status ≠ 412 := by
    rcases hs with hs | hs | hs <;> simp [hs]
  obtain ⟨hground, h304, h412⟩ := hnot
  obtain ⟨path, a, hp, ha, hg⟩ := h.of_status hground
  rcases hg with ⟨-, verdict, -, -, hv⟩ | ⟨directory, rfl, hl⟩ | ⟨target, found, rfl, hd⟩
  · rcases Precondition.Verdict.status_of_reply? hv with h | h <;> contradiction
  · exact ⟨path, hp, Or.inl ⟨directory, ha, hl⟩⟩
  · exact ⟨path, hp, Or.inr ⟨target, found, ha, hd⟩⟩

variable {b₁ b₂ : Text} {arrival₁ arrival₂ : Arrival} {r₁ r₂ : Request} {n₁ n₂ : Negotiator}
  {x₁ x₂ : Reply}

/-- **Alike requests** whose replies are about content get one listing, or deliveries of one
file. -/
theorem listing_or_deliveries {name : Text} (h : r₁.AlikeBut name r₂)
    (hm : methodReply r₁.method = none)
    (h₁ : (site.handle t b₁ arrival₁ r₁ n₁).1.result = .ok x₁) (hs₁ : x₁.OfContent)
    (h₂ : (site.handle t b₂ arrival₂ r₂ n₂).1.result = .ok x₂) (hs₂ : x₂.OfContent) :
    (∃ path directory, listingReply (site.service t) (r₁.inquiry b₁ path) directory = .ok x₁ ∧
        x₂ = x₁) ∨
      ∃ o : site.Base t r₁.path,
        delivery (site.service t) (r₁.inquiry b₁ o.path)
          (consulted (r₁.headers.lines HeaderName.acceptEncoding) o.found n₁).1 o.target o.found =
            .ok x₁ ∧
        delivery (site.service t) (r₂.inquiry b₂ o.path)
          (consulted (r₂.headers.lines HeaderName.acceptEncoding) o.found n₂).1 o.target o.found =
            .ok x₂ := by
  obtain ⟨path, hp, hx⟩ := (grounds_of_handle hm h₁).listing_or_file hs₁
  obtain ⟨path', hp', hy⟩ := (grounds_of_handle (h.method ▸ hm) h₂).listing_or_file hs₂
  rw [← h.path, hp] at hp'
  cases hp'
  simp only [← h.query] at hy
  -- both requests aim at the same thing, so the mixed cases fall away
  rcases hx with ⟨directory, ha, hl⟩ | ⟨target, found, ha, hd⟩
  · rcases hy with ⟨directory', ha', hl'⟩ | ⟨_, _, ha', _⟩ <;> rw [ha] at ha' <;> cases ha'
    have he : listingReply (site.service t) (r₁.inquiry b₁ path) directory =
        listingReply (site.service t) (r₂.inquiry b₂ path) directory :=
      listingReply_of_alike h b₁ b₂ path directory
    rw [hl, hl'] at he
    cases he
    exact Or.inl ⟨path, directory, hl, rfl⟩
  · rcases hy with ⟨_, ha', _⟩ | ⟨target', found', ha', hd'⟩ <;> rw [ha] at ha' <;> cases ha'
    obtain ⟨o, rfl, rfl, rfl⟩ := exists_base_of_aim hp ha
    exact Or.inr ⟨o, hd, hd'⟩

end Site

end Docroot
