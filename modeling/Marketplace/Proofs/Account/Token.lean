import Mathlib.Control.Monad.Basic
import Marketplace.Account.Token
import Marketplace.Proofs.Crypto.Base64Url
import Marketplace.Proofs.Text.Blank
set_option autoImplicit false

/-!
# Signed tokens

Whoever knows the secret can make tokens that are good: a signed token is taken apart where it was
put together, for its parts have no dots, and is read as the claims that it was made of.
-/

namespace Marketplace

namespace Token

/-- A text is split at a dot behind which there are no others. -/
theorem splitLast_append (initial : List Char) {tail : List Char} (htail : '.' ∉ tail) :
    splitLast (initial ++ '.' :: tail) = some (initial, tail) := by
  have hnone : ∀ c ∈ tail.reverse, (c != '.') = true := by
    intro c hc
    rw [List.mem_reverse] at hc
    exact bne_iff_ne.mpr fun hdot => htail (hdot ▸ hc)
  have hreverse : (initial ++ '.' :: tail).reverse = tail.reverse ++ '.' :: initial.reverse := by
    rw [List.reverse_append, List.reverse_cons, List.append_assoc]
    rfl
  unfold splitLast
  rw [hreverse, List.takeWhile_append_of_pos hnone, List.dropWhile_append_of_pos hnone]
  simp

theorem readPart_header :
    readPart header (Base64Url.encode (bytes headerJson.render)) = .ok true := by
  decide +kernel

/-- A token that has been signed with the secret is read as the claims that its text says. -/
theorem read_signText (secret : String) {text : String} {claims : Claims}
    (hpart : partText? (Base64Url.encode (bytes text)) = some text)
    (hclaims : Claims.decoder.run text = .ok claims) (haudience : audience.run text = .ok false) :
    read secret (signText secret text) = .ok claims := by
  have hsplit : splitLast (signText secret text).toList = some
      (Base64Url.encode (bytes headerJson.render) ++ '.' :: Base64Url.encode (bytes text),
        signature secret (Base64Url.encode (bytes headerJson.render) ++
          '.' :: Base64Url.encode (bytes text))) := by
    unfold signText
    rw [String.toList_ofList]
    exact splitLast_append _ (Base64Url.dot_not_mem_encode _)
  have hpayload : ∀ {α : Type} (d : Json.Decoder α) {a : α}, d.run text = .ok a →
      readPart d (Base64Url.encode (bytes text)) = .ok a := by
    intro α d a ha
    unfold readPart
    rw [hpart]
    simp only [ha]
  unfold read
  rw [hsplit]
  simp only [Option.elim_some, Bind.bind, Except.bind, readPart_header, hpayload _ hclaims,
    hpayload _ haudience, splitLast_append _ (Base64Url.dot_not_mem_encode _), bne_self_eq_false]
  rfl

/-- A signed token is written with the characters of base64 and with dots. -/
theorem forall_mem_signText {P : Char → Prop} (hdot : P '.')
    (hsextet : ∀ n, P (Base64Url.encodeSextet n)) (secret text : String) :
    ∀ c ∈ (signText secret text).toList, P c := by
  have hpart := Base64Url.forall_mem_encode P hsextet
  unfold signText signature
  rw [String.toList_ofList]
  simp only [List.mem_append, List.mem_cons]
  rintro c ((hc | rfl | hc) | rfl | hc)
  · exact hpart _ c hc
  · exact hdot
  · exact hpart _ c hc
  · exact hdot
  · exact hpart _ c hc

/-- A signed token has no blanks around it. -/
theorem trim_signText (secret text : String) :
    Text.trim (signText secret text) = signText secret text := by
  have hplain : ∀ c ∈ (signText secret text).toList, Text.isBlank c = false :=
    forall_mem_signText (by decide) (fun n => (Base64Url.encodeSextet_plain n).2.1) secret text
  unfold Text.trim
  rw [Text.trimChars_eq_self hplain, String.ofList_toList]

/-- A signed token can be sent in a header. -/
theorem visible_of_mem_signText (secret text : String) :
    ∀ c ∈ (signText secret text).toList, 32 ≤ c.toNat ∧ c.toNat < 127 :=
  forall_mem_signText (by decide) (fun n => (Base64Url.encodeSextet_plain n).2.2) secret text

/-- A signed token is accepted as long as its claims are good. -/
theorem validate_trim_signText {secret text : String} {claims : Claims} {now : Instant}
    (hread : read secret (signText secret text) = .ok claims)
    (hcheck : claims.check now = .ok ()) :
    validate secret (Text.trim (signText secret text)) now = .ok claims := by
  unfold validate
  rw [trim_signText, hread]
  simp only [hcheck]
  rfl

end Token

/-- The claims of a buyer, good for a hundred seconds from the beginning of time on. -/
def firstClaims : Claims := ⟨⟨7⟩, "", .buyer, ⟨0, 0⟩, ⟨100, 0⟩⟩

/-- Their text. -/
def firstClaimsText : String :=
  "\x7b\"sub\":7,\"email\":\"\",\"account_type\":\"buyer\"," ++
    "\"issued_at\":\"1970-01-01T00:00:00Z\",\"expires_at\":\"1970-01-01T00:01:40Z\"\x7d"

theorem Token.read_firstClaims (secret : String) :
    read secret (signText secret firstClaimsText) = .ok firstClaims :=
  read_signText secret (by decide +kernel) (by decide +kernel) (by decide +kernel)

end Marketplace
