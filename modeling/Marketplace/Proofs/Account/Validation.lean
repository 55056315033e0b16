import Marketplace.Proofs.Account.Token
import Marketplace.Proofs.Json.Yields
import Marketplace.Proofs.Wire.Order
set_option autoImplicit false

/-!
# What a validator accepts

Claims that are signed and then validated come back if the clock stands in their window of time, and
otherwise the fault says on which side of it the clock stands.  A token has the window in texts, so
both what comes back and the verdict are about the claims as these show them (`Claims.shown`); that
makes a difference only for a leap second within a minute.  Whatever is accepted is a token of three
parts, signed with the secret, whose claims are good at the time.

What is accepted and what is signed are tied together in both directions.  From claims to tokens it
is a round trip; from tokens to claims nothing is assumed of the token, which may be any text, and
the signature is all that connects it with the secret.
-/

namespace Marketplace

open Json (Value Decoder)
open Json.Value
open Json.Decoder

/-! ## Texts in base64 -/

/-- The library lists the bytes of a text by a loop with an accumulator; what it lists are the bytes
in their order. -/
theorem toList_byteArray (b : ByteArray) : b.toList = b.data.toList := by
  have hloop (i : Nat) (acc : List UInt8) :
      ByteArray.toList.loop b i acc = acc.reverse ++ b.data.toList.drop i := by
    induction i, acc using ByteArray.toList.loop.induct b with
    | case1 i acc hi ih =>
      have hlength : i < b.data.toList.length := by rwa [Array.length_toList]
      have hget : b.get! i = b.data.toList[i] := by
        rw [ByteArray.get!, getElem!_pos b.data i hi, Array.getElem_toList]
      rw [ByteArray.toList.loop, if_pos hi, ih, List.reverse_cons, List.append_assoc,
        List.drop_eq_getElem_cons hlength, hget, List.singleton_append]
    | case2 i acc hi =>
      have hlength : b.data.toList.length ≤ i := by
        rw [Array.length_toList]
        exact Nat.not_lt.mp hi
      rw [ByteArray.toList.loop, if_neg hi, List.drop_eq_nil_of_le hlength, List.append_nil]
  exact hloop 0 []

namespace Token

/-- A text is read back from its part of a token. -/
theorem partText?_encode (s : String) : partText? (Base64Url.encode (bytes s)) = some s := by
  have hbytes : (⟨(bytes s).toArray⟩ : ByteArray) = s.toByteArray := by
    rw [bytes, toList_byteArray]
    rfl
  rw [partText?, Base64Url.decode_encode]
  simp only [Option.bind_eq_bind, Option.bind_some, hbytes, String.fromUTF8?]
  exact dif_pos s.isValidUTF8

/-- What is read as a part of a token has no dot in it, so the dots of a token are where its parts
meet. -/
theorem dot_not_mem_of_readPart {α : Type} {d : Decoder α} {cs : List Char} {a : α}
    (h : readPart d cs = .ok a) : '.' ∉ cs := by
  unfold readPart partText? at h
  cases hbytes : Base64Url.decode cs with
  | none =>
    rw [hbytes] at h
    cases h
  | some bs => exact Base64Url.dot_not_mem_of_decode hbytes

end Token

/-! ## Claims as JSON -/

/-- The type of an account is one of two names. -/
theorem AccountType.reads (t : AccountType) : decoder.Reads t.toJson t := by
  cases t <;> exact reads_oneOf_plain rfl

namespace Claims

variable {c : Claims}

/-- The subject is a number of 64 bits, and the calendar has the instants. -/
structure Fits (c : Claims) : Prop where
  subject : c.subject.Fits
  issuedAt : c.issuedAt.Valid
  expiresAt : c.expiresAt.Valid

/-- The claims as their text shows them. -/
def shown (c : Claims) : Claims :=
  { c with issuedAt := c.issuedAt.shown, expiresAt := c.expiresAt.shown }

/-- Claims come back as they were unless one of their instants lies in a leap second within a
minute. -/
theorem shown_eq_self_iff : c.shown = c ↔ c.issuedAt.Regular ∧ c.expiresAt.Regular := by
  rw [← Instant.shown_eq_self_iff, ← Instant.shown_eq_self_iff]
  constructor
  · exact fun heq => ⟨congrArg issuedAt heq, congrArg expiresAt heq⟩
  · rintro ⟨hissued, hexpires⟩
    unfold shown
    rw [hissued, hexpires]

/-- The claims are read back member by member; only their two instants may change, to the ones that
are shown. -/
theorem Fits.reads (h : c.Fits) : decoder.Reads c.toJson c.shown := by
  refine Fills.record (.field rfl rfl (h.subject.reads.required _ _) ?_)
  refine .field rfl rfl ((reads_text c.email).required _ _) ?_
  refine .field rfl rfl (c.accountType.reads.required _ _) ?_
  refine .field rfl rfl (h.issuedAt.reads.required _ _) ?_
  exact .field rfl rfl (h.expiresAt.reads.required _ _) (.done rfl)

/-- Claims name no audience: of their members only the subject is a registered one. -/
theorem audience_reads (c : Claims) : Token.audience.Reads c.toJson false := by
  have hskip (v : Value) : (map (fun _ s => s) skip).Reads v fun s : Bool => s :=
    (reads_skip v).map _
  have hsubject : (Decoder.option skip).Reads c.subject.toJson (some ()) :=
    (reads_skip _).option rfl
  refine Fills.record (.field rfl rfl (hsubject.nullable _ _) ?_)
  refine .other rfl rfl (hskip _) (.other rfl rfl (hskip _) ?_)
  exact .other rfl rfl (hskip _) (.other rfl rfl (hskip _) (.done rfl))

theorem Fits.isSpelled (h : c.Fits) : c.toJson.IsSpelled := by
  have htype : c.accountType.toJson.IsSpelled := isSpelled_text _
  have hinstant (t : Instant) : t.toJson.IsSpelled := isSpelled_text _
  refine isSpelled_object ?_
  simp [h.subject.isSpelled, isSpelled_text, htype, hinstant]

theorem depth_toJson (c : Claims) : c.toJson.depth = 1 := rfl

/-- The clock stands in the window of claims that pass. -/
theorem window_of_check {now : Instant} (h : c.check now = .ok ()) :
    c.issuedAt.le now = true ∧ now.lt c.expiresAt = true := by
  unfold check at h
  split at h
  · cases h
  · split at h
    · cases h
    · rename_i hissued
      split at h
      · cases h
      · rename_i hexpires
        exact ⟨by simpa [Instant.lt] using hissued, by simpa [Instant.lt] using hexpires⟩

end Claims

namespace Token

variable {secret token : String} {c : Claims} {now : Instant}

/-- Signed claims are read as their text shows them. -/
theorem read_sign (secret : String) (h : c.Fits) : read secret (sign secret c) = .ok c.shown := by
  have hdepth : c.toJson.depth ≤ Json.maxDepth := by
    rw [c.depth_toJson]
    decide
  exact read_signText secret (partText?_encode _) (h.reads.run hdepth h.isSpelled)
    (c.audience_reads.run hdepth h.isSpelled)

/-! ## Parts of tokens -/

theorem eq_append_of_splitLast {cs initial tail : List Char}
    (h : splitLast cs = some (initial, tail)) : cs = initial ++ '.' :: tail ∧ '.' ∉ tail := by
  unfold splitLast at h
  split at h
  · rename_i d before hdrop
    cases h
    have hdot : d = '.' := by
      have hnot := List.head?_dropWhile_not (· != '.') cs.reverse
      rw [hdrop] at hnot
      simpa using hnot
    have hcs : cs.reverse = cs.reverse.takeWhile (· != '.') ++ d :: before := by
      rw [← hdrop, List.takeWhile_append_dropWhile]
    constructor
    · have hreverse := congrArg List.reverse hcs
      rwa [List.reverse_reverse, List.reverse_append, List.reverse_cons, List.append_assoc, hdot]
        at hreverse
    · intro hmem
      have htake := List.mem_takeWhile_imp (List.mem_reverse.mp hmem)
      simp at htake
  · cases h

theorem exists_split {cs : List Char} {p : List Char × List Char}
    (h : (splitLast cs).elim (Except.error TokenFlaw.parts) .ok = .ok p) :
    cs = p.1 ++ '.' :: p.2 ∧ '.' ∉ p.2 := by
  cases hsplit : splitLast cs with
  | none =>
    rw [hsplit] at h
    cases h
  | some q =>
    rw [hsplit] at h
    cases h
    exact eq_append_of_splitLast hsplit

/-- A token that is read has been signed, and its header names the algorithm in use. -/
theorem parts_of_read (h : read secret token = .ok c) : ∃ head payload : List Char,
    token.toList = head ++ '.' :: payload ++ '.' :: signature secret (head ++ '.' :: payload) ∧
      readPart header head = .ok true ∧ readPart Claims.decoder payload = .ok c := by
  unfold read at h
  simp only [Bind.bind, Except.bind_eq_ok_iff] at h
  obtain ⟨⟨message, sig⟩, htoken, ⟨head, payload⟩, hmessage, inUse, hhead, h⟩ := h
  have htoken : token.toList = message ++ '.' :: sig := (exists_split htoken).1
  have hmessage : message = head ++ '.' :: payload := (exists_split hmessage).1
  cases inUse with
  | false => cases h
  | true =>
    simp only [Bool.not_true, Bool.false_eq_true, if_false] at h
    split at h
    · cases h
    · rename_i hsig
      obtain ⟨claims, hpayload, h⟩ := Except.bind_eq_ok_iff.mp h
      obtain ⟨named, -, h⟩ := Except.bind_eq_ok_iff.mp h
      cases named with
      | true => cases h
      | false =>
        cases h
        have hsignature : sig = signature secret message := by simpa using hsig
        exact ⟨head, payload, by rw [htoken, hsignature, hmessage], hhead, hpayload⟩

/-! ## Headers -/

/-- A header that has no text `HS256` in it names another algorithm. -/
theorem header_yieldsWithout :
    header.YieldsWithout [.text (some "HS256")] fun inUse => inUse = false := by
  have hnullable {α : Type} (name : String) {d : Decoder α} {P : α → Prop}
      (h : d.YieldsWithout [.text (some "HS256")] P) :
      (Field.nullable name d fun _ inUse => inUse).KeepsWithout [.text (some "HS256")]
        fun inUse => inUse = false :=
    Field.keepsWithout_nullable h (fun _ _ _ hs => hs) name
  have halg :
      (oneOf algorithms).YieldsWithout [.text (some "HS256")] fun inUse => inUse = false := by
    have hvariant {name : String} {v : Variant Bool} (h : algorithms.lookup name = some v) :
        v = .plain (name == "HS256") := by
      have hall : ∀ p ∈ algorithms, p.2 = .plain (p.1 == "HS256") := by
        simp [algorithms]
      obtain ⟨l₁, l₂, heq, -⟩ := List.lookup_eq_some_iff.mp h
      exact hall (name, v) (heq ▸ List.mem_append_right l₁ List.mem_cons_self)
    refine yieldsWithout_oneOf (fun name inUse hname h => ?_) fun name d h => ?_
    · have hne : name ≠ "HS256" := by
        rintro rfl
        exact hname List.mem_cons_self
      cases hvariant h
      exact beq_false_of_ne hne
    · cases hvariant h
  have hrequired : (Field.required "alg" (oneOf algorithms) fun v _ => v).KeepsWithout
      [.text (some "HS256")] fun inUse => inUse = false :=
    Field.keepsWithout_required halg (fun _ _ hv _ => hv) "alg"
  have htext (name : String) := hnullable name yieldsWithout_text
  refine yieldsWithout_record rfl ?_
  simp only [List.forall_mem_cons]
  exact ⟨htext _, hrequired, htext _, htext _, hnullable _ yieldsWithout_skip, htext _, htext _,
    hnullable _ (yieldsWithout_list yieldsWithout_text), htext _, htext _, nofun⟩

/-- The header of a part that names the algorithm in use has the text `HS256`. -/
theorem exists_mem_of_readPart_header {head : List Char} (h : readPart header head = .ok true) :
    ∃ s, partText? head = some s ∧ .text (some "HS256") ∈ Json.tokenize s := by
  unfold readPart at h
  split at h
  · cases h
  · rename_i s hpart
    split at h
    · rename_i hrun
      cases h
      exact ⟨s, hpart, header_yieldsWithout.mem_tokenize hrun (by decide)⟩
    · cases h

/-! ## Validation -/

/-- Signed claims are checked as their text shows them. -/
theorem validate_sign (secret : String) (now : Instant) (h : c.Fits) :
    validate secret (sign secret c) now = (c.shown.check now).map fun _ => c.shown := by
  rw [validate, read_sign secret h]

/-- Signed claims are accepted as they are, or the fault says where the clock stands, unless one of
their instants lies in a leap second within a minute: the claims are then taken as their text shows
them.  And whatever is accepted is a token of three parts whose header names HMAC-SHA256, which has
been signed with the secret, and whose claims are good now. -/
theorem validate_sign_and_accepted (secret : String) (now : Instant) :
    (∀ c : Claims, c.Fits →
      (c.issuedAt.Regular → c.expiresAt.Regular → validate secret (sign secret c) now =
        if c.expiresAt.le c.issuedAt then .error .invalidTimeWindow
        else if now.lt c.issuedAt then .error .notYetValid
        else if c.expiresAt.le now then .error .expired
        else .ok c) ∧
      validate secret (sign secret c) now =
        if c.expiresAt.shown.le c.issuedAt.shown then .error .invalidTimeWindow
        else if now.lt c.issuedAt.shown then .error .notYetValid
        else if c.expiresAt.shown.le now then .error .expired
        else .ok { c with issuedAt := c.issuedAt.shown, expiresAt := c.expiresAt.shown }) ∧
    ∀ (token : String) (c : Claims), validate secret token now = .ok c →
      ∃ head payload sig : List Char, token.toList = head ++ '.' :: payload ++ '.' :: sig ∧
        '.' ∉ head ∧ '.' ∉ payload ∧ '.' ∉ sig ∧
        readPart header head = .ok true ∧
        (∃ s, partText? head = some s ∧ .text (some "HS256") ∈ Json.tokenize s) ∧
        sig = Base64Url.encode
          (Sha256.hmac (bytes secret) (bytes (String.ofList (head ++ '.' :: payload)))) ∧
        readPart Claims.decoder payload = .ok c ∧
        c.issuedAt.le now = true ∧ now.lt c.expiresAt = true := by
  constructor
  · intro c hc
    have hverdict : validate secret (sign secret c) now =
        if c.shown.expiresAt.le c.shown.issuedAt then .error .invalidTimeWindow
        else if now.lt c.shown.issuedAt then .error .notYetValid
        else if c.shown.expiresAt.le now then .error .expired
        else .ok c.shown := by
      rw [validate_sign secret now hc, Claims.check]
      split_ifs <;> rfl
    refine ⟨fun hissued hexpires => ?_, hverdict⟩
    rwa [Claims.shown_eq_self_iff.mpr ⟨hissued, hexpires⟩] at hverdict
  · intro token c h
    unfold validate at h
    split at h
    · cases h
    · rename_i claims hread
      obtain ⟨⟨⟩, hcheck, rfl⟩ := Except.map_eq_ok_iff.mp h
      obtain ⟨head, payload, htoken, hhead, hpayload⟩ := parts_of_read hread
      obtain ⟨hissued, hexpires⟩ := Claims.window_of_check hcheck
      exact ⟨head, payload, _, htoken, dot_not_mem_of_readPart hhead,
        dot_not_mem_of_readPart hpayload, Base64Url.dot_not_mem_encode _, hhead,
        exists_mem_of_readPart_header hhead, rfl, hpayload, hissued, hexpires⟩

end Token

/-- Claims from the second nanosecond of the calendar to the middle of a leap second. -/
def Claims.untilLeap : Claims :=
  ⟨⟨-2 ^ 63⟩, "\"a\"\n@é", .shop, ⟨Instant.minSeconds, 1⟩, ⟨1483228799, 1500000000⟩⟩

theorem Token.validate_untilLeap :
    validate "secret" (sign "secret" .untilLeap) ⟨1483228799, 1499999999⟩ = .ok .untilLeap ∧
      validate "secret" (sign "secret" .untilLeap) ⟨1483228799, 1500000000⟩ = .error .expired ∧
      ∃ head payload sig : List Char,
        (sign "secret" .untilLeap).toList = head ++ '.' :: payload ++ '.' :: sig ∧
          readPart header head = .ok true := by
  have hfits : Claims.untilLeap.Fits :=
    ⟨by decide, ⟨by decide, by decide, by decide⟩, ⟨by decide, by decide, by decide⟩⟩
  have hissued : Claims.untilLeap.issuedAt.Regular := by decide
  have hexpires : Claims.untilLeap.expiresAt.Regular := by decide
  obtain ⟨hgood, haccepted⟩ := validate_sign_and_accepted "secret" ⟨1483228799, 1499999999⟩
  have hlate : validate "secret" (sign "secret" .untilLeap) ⟨1483228799, 1500000000⟩ =
      .error .expired :=
    ((validate_sign_and_accepted "secret" ⟨1483228799, 1500000000⟩).1 _ hfits).1 hissued hexpires
  have hok : validate "secret" (sign "secret" .untilLeap) ⟨1483228799, 1499999999⟩ =
      .ok .untilLeap := (hgood _ hfits).1 hissued hexpires
  obtain ⟨head, payload, sig, htoken, -, -, -, hhead, -⟩ := haccepted _ _ hok
  exact ⟨hok, hlate, head, payload, sig, htoken, hhead⟩

/-- Claims from the leap second after 23:56:04 on the last of June 2015, which is in the middle of a
minute, to the end of the next day. -/
def Claims.fromWithinMinute : Claims :=
  ⟨⟨7⟩, "user7@example.com", .buyer, ⟨1435708564, 1333333333⟩, ⟨1435795200, 0⟩⟩

/-- A tenth of a second after 23:56:05 these claims have been issued, but their token is not good
yet: it shows that they are issued a third of a second after 23:56:05. -/
theorem Token.not_validate_fromWithinMinute : Claims.fromWithinMinute.Fits ∧
    Claims.fromWithinMinute.issuedAt.le ⟨1435708565, 100000000⟩ = true ∧
    Claims.fromWithinMinute.expiresAt.le ⟨1435708565, 100000000⟩ = false ∧
    validate "secret" (sign "secret" .fromWithinMinute) ⟨1435708565, 100000000⟩ =
      .error .notYetValid := by
  have hfits : Claims.fromWithinMinute.Fits :=
    ⟨by decide, ⟨by decide, by decide, by decide⟩, ⟨by decide, by decide, by decide⟩⟩
  refine ⟨hfits, by decide, by decide, ?_⟩
  have hcheck : Claims.fromWithinMinute.shown.check ⟨1435708565, 100000000⟩ =
      .error .notYetValid := by decide
  rw [validate_sign "secret" _ hfits, hcheck]
  rfl

end Marketplace
