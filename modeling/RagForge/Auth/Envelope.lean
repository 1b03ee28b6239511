import RagForge.Auth.Ticket

/-
Tickets bound to the envelopes of internal messages.

`attach_internal_auth_context` signs an identity together with a digest of the envelope, which
covers everything but the ticket itself.  The receiver computes the digest of what arrived.  Keys
are sorted for the digest, so that neither the ticket nor a JSON round trip changes it.
-/

namespace RagForge.Auth

open JsonText (Doc Numerals Object print parse sortKeys)
open Py (Dict ok_of_ite ok_of_map)

variable {β ν : Type} {d : Dict String (Doc ν)} {who : Identity} {envelope : Object ν} {v : Doc ν}
  {k secret : String} {required : Bool} {now : Int}

/-! ## Dictionaries -/

theorem mem_set {p : String × Doc ν} (h : p ∈ d.set k v) : p ∈ d ∨ p.2 = v := by
  induction d with
  | nil =>
    rw [Dict.set, List.mem_singleton] at h
    exact .inr (by rw [h])
  | cons q rest ih =>
    rw [Dict.set] at h
    split at h
    · rcases List.mem_cons.mp h with rfl | h
      · exact .inr rfl
      · exact .inl (List.mem_cons_of_mem _ h)
    · rcases List.mem_cons.mp h with rfl | h
      · exact .inl List.mem_cons_self
      · rcases ih h with h | h
        · exact .inl (List.mem_cons_of_mem _ h)
        · exact .inr h

theorem valid_set (hd : (Doc.obj d).valid = true) (k : String) (hv : v.valid = true) :
    (Doc.obj (d.set k v)).valid = true := by
  rw [Doc.valid, Bool.and_eq_true, decide_eq_true_eq, JsonText.validFields_iff] at hd ⊢
  constructor
  · exact Dict.nodup_set hd.1 k v
  · intro p hp
    rcases mem_set hp with hp | hp
    · exact hd.2 p hp
    · rw [hp]
      exact hv

def setValue (o : Object ν) (key : String) (value : Doc ν) (h : value.valid = true) : Object ν :=
  ⟨Dict.set o.val key value, valid_set o.property key h⟩

def without (o : Object ν) (key : String) : Object ν :=
  ⟨Dict.erase o.val key, by
    have ho := o.property
    rw [Doc.valid, Bool.and_eq_true, decide_eq_true_eq, JsonText.validFields_iff] at ho ⊢
    constructor
    · exact ho.1.sublist (List.filter_sublist.map Prod.fst)
    · intro p hp
      exact ho.2 p (List.mem_of_mem_filter hp)⟩

theorem erase_set (d : Dict String (Doc ν)) (k : String) (v : Doc ν) :
    Dict.erase (d.set k v) k = d.erase k := by
  induction d with
  | nil => simp [Dict.set, Dict.erase]
  | cons p rest ih =>
    rw [Dict.set]
    by_cases hk : p.1 = k
    · simp [hk, Dict.erase]
    · rw [if_neg hk]
      unfold Dict.erase at ih ⊢
      rw [List.filter_cons, List.filter_cons, ih]

/-! ## Envelopes -/

section Envelope

variable (M : Numbers ν) (P : Primitives β ν)

def envelopeDigest (envelope : Object ν) : String :=
  P.sha256 (P.utf8 (canonical M.toNumerals (without envelope "auth_context").doc))

def digestClaim (envelope : Object ν) : Object ν :=
  ⟨[("payload_sha256", .str (envelopeDigest M P envelope))], rfl⟩

def internalGrant (secret : String) (ttlSeconds now : Int) (jti : String) : Grant where
  secret := secret
  audience := "internal"
  ttlSeconds := ttlSeconds
  purpose := "request"
  issuer := "ragapp-internal"
  now := now
  jti := jti

/-- `attach_internal_auth_context`, given the identity of the call or of the context. -/
def attachInternalAuthContext (envelope : Object ν) (identity : Option Identity) (secret : String)
    (required : Bool) (ttlSeconds now : Int) (jti : String) : Except Err (Object ν) :=
  match identity with
  | some who =>
    if secret = "" then
      if required then
        .error (.auth "cannot publish an internal message without authenticated identity")
      else .ok envelope
    else
      match signAuthTicket M P who (internalGrant secret ttlSeconds now jti)
        (digestClaim M P envelope) with
      | .error e => .error e
      | .ok ticket => .ok (setValue envelope "auth_context" (.str (String.ofList ticket)) rfl)
  | none =>
    if required then
      .error (.auth "cannot publish an internal message without authenticated identity")
    else .ok envelope

def internalDemand (secret : String) (now : Int) (envelope : Object ν) : Demand where
  secret := secret
  audience := "internal"
  purpose := some "request"
  now := now
  requiredClaims := [("payload_sha256", envelopeDigest M P envelope)]

variable [DecidableEq β]

def verifyFromEnvelope (secret : String) (required : Bool) (now : Int) (envelope : Object ν) :
    Except Err (Option Identity) :=
  if truthy M (Dict.get? envelope.val "auth_context") then
    let ticket := ((Dict.get? envelope.val "auth_context").map P.str).getD ""
    (verifyAuthTicket M P (internalDemand M P secret now envelope) ticket.toList).map some
  else if required then
    .error (.auth "signed authentication context is required" "internal_auth_required")
  else .ok none

end Envelope

/-! ## The round trip -/

variable {M : Numbers ν} {P : Primitives β ν} {envelope' : Object ν}

section RoundTrip

theorem envelopeDigest_setValue (envelope : Object ν) (value : Doc ν) (h : value.valid = true) :
    envelopeDigest M P (setValue envelope "auth_context" value h) =
      envelopeDigest M P envelope := by
  unfold envelopeDigest without setValue Object.doc
  simp only [erase_set]

theorem payload_sha256_notMem (M : Numbers ν) (who : Identity) (g : Grant) :
    "payload_sha256" ∉ (baseClaims M who g).map Prod.fst := by
  unfold baseClaims Identity.toDict
  cases who.email <;> cases who.adminId <;> cases who.sessionId <;> simp [optionalField]

theorem internal_disjoint (who : Identity) (g : Grant) (envelope : Object ν) :
    ∀ p ∈ baseClaims M who g, p.1 ∉ (digestClaim M P envelope).val.map Prod.fst := by
  intro p hp hmem
  have hkey : p.1 = "payload_sha256" := by
    simpa [digestClaim] using hmem
  exact payload_sha256_notMem M who g (hkey ▸ List.mem_map_of_mem hp)

theorem get?_of_base {g : Grant} {extra : Object ν}
    (h : ∀ p ∈ baseClaims M who g, p.1 ∉ extra.val.map Prod.fst)
    (hbase : Dict.get? (baseClaims M who g) k = some v) :
    (readClaims M who g extra).get? k = some (sortKeys v) := by
  rw [get?_readClaims h, hbase]
  rfl

theorem get?_payload_sha256 (who : Identity) (g : Grant) (envelope : Object ν) :
    (readClaims M who g (digestClaim M P envelope)).get? "payload_sha256" =
      some (.str (envelopeDigest M P envelope)) := by
  have hnone : Dict.get? (baseClaims M who g) "payload_sha256" = none := by
    cases hget : Dict.get? (baseClaims M who g) "payload_sha256" with
    | none => rfl
    | some v =>
      have hmem := Dict.mem_of_get? _ hget
      exact absurd (List.mem_map_of_mem hmem) (payload_sha256_notMem M who g)
  rw [get?_readClaims (internal_disjoint who g envelope), hnone]
  simp [digestClaim, Dict.get?, sortKeys]

/-- Within its lifetime an internal ticket passes every check for the envelope it was signed for. -/
theorem checkClaims_internal (who : Identity) (secret : String) (ttlSeconds now : Int)
    (jti : String) (envelope received : Object ν) (now' : Int)
    (hdigest : envelopeDigest M P received = envelopeDigest M P envelope)
    (hactive : now ≤ now' + 30) (halive : now' - 30 < now + ttlSeconds) :
    checkClaims M P (internalDemand M P secret now' received)
        (readClaims M who (internalGrant secret ttlSeconds now jti) (digestClaim M P envelope)) =
      fromMapping M P
        (readClaims M who (internalGrant secret ttlSeconds now jti)
          (digestClaim M P envelope)) := by
  have hdisjoint := internal_disjoint (M := M) (P := P) who
    (internalGrant secret ttlSeconds now jti) envelope
  obtain ⟨-, -, -, -, -, -, hiss, haud, hpurpose, hiat, hexp⟩ :=
    get?_baseClaims M who (internalGrant secret ttlSeconds now jti) rfl
  have hiss' := get?_of_base hdisjoint hiss
  have haud' := get?_of_base hdisjoint haud
  have hpurpose' := get?_of_base hdisjoint hpurpose
  have hiat' := get?_of_base hdisjoint hiat
  have hexp' := get?_of_base hdisjoint hexp
  have hsha' := get?_payload_sha256 (M := M) (P := P) who
    (internalGrant secret ttlSeconds now jti) envelope
  have hnow : ¬ now' + 30 < now := by omega
  have hend : ¬ now + ttlSeconds ≤ now' - 30 := by omega
  generalize readClaims M who (internalGrant secret ttlSeconds now jti)
    (digestClaim M P envelope) = claims at *
  unfold checkClaims
  simp only [hiss', haud', hpurpose', hiat', hexp', internalGrant, internalDemand, sortKeys]
  simp [unhashable, isText, asInt, M.toInt_ofInt, hsha', hdigest, hnow, hend]

/-- No optional field of the identity is the empty text. -/
def Identity.Full (who : Identity) : Prop :=
  who.email ≠ some "" ∧ who.adminId ≠ some "" ∧ who.sessionId ≠ some ""

instance (who : Identity) : Decidable who.Full := inferInstanceAs (Decidable (_ ∧ _ ∧ _))

theorem kept_digestClaim {key : String} (hkey : key ≠ "payload_sha256") (value : Option String) :
    Kept M (digestClaim M P envelope) key value ↔ value ≠ some "" := by
  cases value with
  | some s => simp [Kept]
  | none => simp [Kept, digestClaim, Dict.get?, hkey.symm, truthy]

variable [DecidableEq β]

/-- An attached ticket verifies with the envelope after a JSON round trip, and yields the identity
exactly when none of its optional fields is empty. -/
theorem attached_ticket_verifies {jti : String} {ttlSeconds : Int} (now' : Int)
    (hattach : attachInternalAuthContext M P envelope (some who) secret required ttlSeconds now
      jti = .ok envelope') (hsecret : secret ≠ "") (hactive : now ≤ now' + 30)
    (halive : now' - 30 < now + ttlSeconds) :
    parse M.toNumerals (print M.toNumerals ⟨true, true⟩ envelope'.doc) = some envelope'.doc ∧
      ∃ who', verifyFromEnvelope M P secret required now' envelope' = .ok (some who') ∧
        (who' = who ↔ who.Full) := by
  refine ⟨JsonText.parse_print _ _ envelope'.property, ?_⟩
  unfold attachInternalAuthContext at hattach
  dsimp only at hattach
  rw [if_neg hsecret] at hattach
  split at hattach
  · cases hattach
  · next ticket hsign =>
    cases hattach
    have hget : Dict.get? (setValue envelope "auth_context" (.str (String.ofList ticket)) rfl).val
        "auth_context" = some (.str (String.ofList ticket)) := Dict.get?_set_self _ _ _
    have hne : String.ofList ticket ≠ "" := by
      intro hempty
      obtain ⟨_, _, _, rfl⟩ := signAuthTicket_eq_ok hsign
      have hchars := congrArg String.toList hempty
      rw [String.toList_ofList] at hchars
      exact List.append_ne_nil_of_right_ne_nil _ (List.cons_ne_nil _ _) hchars
    obtain ⟨who', hread, hiff⟩ := fromMapping_readClaims
      (internal_disjoint who (internalGrant secret ttlSeconds now jti) envelope)
    rw [kept_digestClaim (by decide), kept_digestClaim (by decide),
      kept_digestClaim (by decide)] at hiff
    refine ⟨who', ?_, hiff⟩
    have hverify := verify_signed
      (d := internalDemand M P secret now'
        (setValue envelope "auth_context" (.str (String.ofList ticket)) rfl)) hsign rfl
    rw [checkClaims_internal who secret ttlSeconds now jti envelope _ now'
      (envelopeDigest_setValue envelope _ rfl) hactive halive, hread] at hverify
    unfold verifyFromEnvelope
    rw [hget, if_pos (by simpa [truthy] using hne)]
    simp only [Option.map_some, Option.getD_some, P.str_str, String.toList_ofList, hverify]
    rfl

end RoundTrip

/-! ## Where a ticket comes from -/

/-- A ticket that a service issued: for an internal envelope, or for a socket connection. -/
inductive Issue (ν : Type)
  | internal (envelope : Object ν) (who : Identity) (ttlSeconds now : Int) (jti : String)
  | socket (who : Identity) (ttlSeconds now : Int) (jti : String)

def socketGrant (secret : String) (ttlSeconds now : Int) (jti : String) : Grant where
  secret := secret
  audience := "rag"
  ttlSeconds := min 120 (ttlSeconds * 2)
  purpose := "socket"
  now := now
  jti := jti

section Origin

variable (M : Numbers ν) (P : Primitives β ν)

def Issue.encoded (secret : String) : Issue ν → List Char
  | .internal envelope who ttlSeconds now jti =>
    encodedClaims M P who (internalGrant secret ttlSeconds now jti) (digestClaim M P envelope)
  | .socket who ttlSeconds now jti =>
    encodedClaims M P who (socketGrant secret ttlSeconds now jti) ⟨[], rfl⟩

/-- What a ticket of an envelope covers: everything but the ticket, in the order of the keys. -/
def signedContent (envelope : Object ν) : Doc ν :=
  sortKeys (without envelope "auth_context").doc

def carriedTicket (envelope : Object ν) : List Char :=
  (((Dict.get? envelope.val "auth_context").map P.str).getD "").toList

variable [DecidableEq β]

/-- The ticket was not forged: if its signature is right, its claims were signed by an issuer. -/
def Unforged (secret : String) (issued : Issue ν → Prop) (ticket : List Char) : Prop :=
  ∀ encoded signature key, splitTicket ticket = some (encoded, signature) →
    secretBytes P secret = .ok key → checkSignature P key encoded signature = .ok () →
      ∃ i, issued i ∧ i.encoded M P secret = encoded

end Origin

section Content

theorem utf8_injective {t u : List Char} (h : P.utf8 t = P.utf8 u) : t = u := by
  have ht := P.ofUtf8_utf8 t
  rw [h, P.ofUtf8_utf8] at ht
  exact (Option.some.inj ht).symm

/-- Equal digests are digests of the same content. -/
theorem signedContent_of_digest (hsha : ∀ a b, P.sha256 a = P.sha256 b → a = b)
    (h : envelopeDigest M P envelope = envelopeDigest M P envelope') :
    signedContent envelope = signedContent envelope' := by
  have htext := utf8_injective (hsha _ _ h)
  exact JsonText.print_injective M.toNumerals ⟨true, false⟩
    (JsonText.valid_sortKeys _ (without envelope "auth_context").property)
    (JsonText.valid_sortKeys _ (without envelope' "auth_context").property) htext

variable [DecidableEq β]

/-- A ticket that verifies with an envelope was issued for the content of that envelope. -/
theorem verified_content (hsha : ∀ a b, P.sha256 a = P.sha256 b → a = b) {issued : Issue ν → Prop}
    (hverify : verifyFromEnvelope M P secret required now envelope = .ok (some who))
    (hunforged : Unforged M P secret issued (carriedTicket P envelope)) :
    ∃ origin who' ttlSeconds issuedAt jti,
      issued (.internal origin who' ttlSeconds issuedAt jti) ∧
        signedContent origin = signedContent envelope := by
  unfold verifyFromEnvelope at hverify
  split at hverify
  · obtain ⟨returned, hticket, -⟩ := ok_of_map hverify
    obtain ⟨encoded, signature, key, payload, hsplit, hkey, hsig, hload, hcheck⟩ :=
      verifyAuthTicket_eq_ok hticket
    obtain ⟨i, hissued, hencoded⟩ := hunforged encoded signature key hsplit hkey hsig
    obtain ⟨haud, hbound, -⟩ := checkClaims_eq_ok hcheck
    cases i with
    | internal origin who' ttlSeconds issuedAt jti =>
      refine ⟨origin, who', ttlSeconds, issuedAt, jti, hissued, ?_⟩
      rw [← hencoded, Issue.encoded, loadClaims_encodedClaims (internal_disjoint _ _ _)] at hload
      have hsha' := hbound ("payload_sha256", envelopeDigest M P envelope)
        (List.mem_singleton_self _)
      have horigin := get?_payload_sha256 (M := M) (P := P) who'
        (internalGrant secret ttlSeconds issuedAt jti) origin
      rw [← Except.ok.inj hload, horigin] at hsha'
      have hdigest : envelopeDigest M P origin = envelopeDigest M P envelope := by
        simpa [isText] using hsha'
      exact signedContent_of_digest hsha hdigest
    | socket who' ttlSeconds issuedAt jti =>
      -- A socket ticket has another audience.
      have hempty : ∀ p ∈ baseClaims M who' (socketGrant secret ttlSeconds issuedAt jti),
          p.1 ∉ ((⟨[], rfl⟩ : Object ν).val.map Prod.fst) := fun _ _ => List.not_mem_nil
      rw [← hencoded, Issue.encoded, loadClaims_encodedClaims hempty] at hload
      have hsocket := get?_of_base hempty
        (get?_baseClaims M who' (socketGrant secret ttlSeconds issuedAt jti) rfl).2.2.2.2.2.2.2.1
      rw [← Except.ok.inj hload, hsocket] at haud
      simp [socketGrant, internalDemand, sortKeys, isText] at haud
  · cases (ok_of_ite hverify).2

/-- An attached ticket verifies after a JSON round trip and yields its identity, exactly when no
optional field of the identity is empty; and a ticket that verifies with an envelope was issued for
the same content. -/
theorem internal_ticket_binds_envelope (M : Numbers ν) (P : Primitives β ν)
    (hsha : ∀ a b, P.sha256 a = P.sha256 b → a = b) :
    (∀ (envelope envelope' : Object ν) (who : Identity) (secret jti : String) (required : Bool)
      (ttlSeconds now now' : Int),
      attachInternalAuthContext M P envelope (some who) secret required ttlSeconds now jti =
        .ok envelope' → secret ≠ "" → now ≤ now' + 30 → now' - 30 < now + ttlSeconds →
      ((∃ received : Object ν,
          parse M.toNumerals (print M.toNumerals ⟨true, true⟩ envelope'.doc) = some received.doc ∧
            verifyFromEnvelope M P secret required now' received = .ok (some who)) ↔ who.Full)) ∧
    (∀ (envelope : Object ν) (who : Identity) (secret : String) (required : Bool) (now : Int)
      (issued : Issue ν → Prop),
      verifyFromEnvelope M P secret required now envelope = .ok (some who) →
      Unforged M P secret issued (carriedTicket P envelope) →
      ∃ origin who' ttlSeconds issuedAt jti,
        issued (.internal origin who' ttlSeconds issuedAt jti) ∧
          signedContent origin = signedContent envelope) := by
  constructor
  · intro envelope envelope' who secret jti required ttlSeconds now now' hattach hsecret hactive
      halive
    obtain ⟨hparse, who', hverify, hiff⟩ :=
      attached_ticket_verifies now' hattach hsecret hactive halive
    rw [← hiff]
    constructor
    · intro h
      obtain ⟨received, hreceived, hwho⟩ := h
      rw [hparse] at hreceived
      have heq : envelope' = received := Subtype.ext (Doc.obj.inj (Option.some.inj hreceived))
      rw [← heq, hverify] at hwho
      exact Option.some.inj (Except.ok.inj hwho)
    · intro heq
      exact ⟨envelope', hparse, by rw [hverify, heq]⟩
  · intro envelope who secret required now issued hverify hunforged
    exact verified_content hsha hverify hunforged

end Content

def sampleEnvelope : Object Int := ⟨[("task", .str "x"), ("size", .num 3)], rfl⟩

def sampleSecret : String := "a secret of thirty-two characters"

/-- The ticket of a user without optional fields. -/
theorem internal_ticket_binds_envelope_user :
    ∃ envelope', attachInternalAuthContext sampleNumbers samplePrimitives sampleEnvelope
        (some sampleUser) sampleSecret true 300 1000 "j" = .ok envelope' ∧
      ((∃ received : Object Int,
          parse sampleNumbers.toNumerals
              (print sampleNumbers.toNumerals ⟨true, true⟩ envelope'.doc) = some received.doc ∧
            verifyFromEnvelope sampleNumbers samplePrimitives sampleSecret true 1010 received =
              .ok (some sampleUser)) ↔ sampleUser.Full) := by
  have hattached : (attachInternalAuthContext sampleNumbers samplePrimitives sampleEnvelope
      (some sampleUser) sampleSecret true 300 1000 "j").toOption.isSome = true := by decide +kernel
  obtain ⟨envelope', hattach⟩ := exists_ok hattached
  have hsha : ∀ a b, samplePrimitives.sha256 a = samplePrimitives.sha256 b → a = b := by
    intro a b h
    have hchars := congrArg String.toList h
    simpa [samplePrimitives] using hchars
  exact ⟨envelope', hattach, (internal_ticket_binds_envelope sampleNumbers samplePrimitives hsha).1
    sampleEnvelope envelope' sampleUser sampleSecret "j" true 300 1000 1010 hattach (by decide)
    (by decide) (by decide)⟩

def emptyEmailUser : Identity := { sampleUser with email := some "" }

/-- The ticket of a user with an empty email yields another identity. -/
theorem empty_email_is_lost :
    ∃ envelope' who', attachInternalAuthContext sampleNumbers samplePrimitives sampleEnvelope
        (some emptyEmailUser) sampleSecret true 300 1000 "j" = .ok envelope' ∧
      parse sampleNumbers.toNumerals (print sampleNumbers.toNumerals ⟨true, true⟩ envelope'.doc) =
        some envelope'.doc ∧
      verifyFromEnvelope sampleNumbers samplePrimitives sampleSecret true 1010 envelope' =
        .ok (some who') ∧ who' ≠ emptyEmailUser := by
  have hattached : (attachInternalAuthContext sampleNumbers samplePrimitives sampleEnvelope
      (some emptyEmailUser) sampleSecret true 300 1000 "j").toOption.isSome = true := by
    decide +kernel
  obtain ⟨envelope', hattach⟩ := exists_ok hattached
  obtain ⟨hparse, who', hverify, hiff⟩ :=
    attached_ticket_verifies 1010 hattach (by decide) (by decide) (by decide)
  exact ⟨envelope', who', hattach, hparse, hverify, fun heq => absurd (hiff.mp heq) (by decide)⟩

end RagForge.Auth
