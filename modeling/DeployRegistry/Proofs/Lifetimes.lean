import DeployRegistry.Http.Problem
import DeployRegistry.Proofs.Readback
import DeployRegistry.Proofs.Signatures

/-!
# How long a token is good

A token that was issued for some claims is read back with these claims up to the second of its
expiry, and is refused from the next second on. A span of no length is taken for no span, so that a
token for such a span is good for the usual time. The main statement is `Token.issue_verify`.
-/

namespace DeployRegistry.Token

set_option autoImplicit false

open Number Text

/-! A token comes apart as it was put together. -/

theorem ne_dot_of_mem_encode {bs : List UInt8} {c : Char} (h : c ∈ Base64Url.encode bs) :
    c ≠ '.' := by
  obtain ⟨n, hn, rfl⟩ := Base64Url.exists_letter_of_mem h
  exact Base64Url.letter_ne_dot hn

theorem beyondUtf8?_eq_none {s : String} (h : ∀ c ∈ s.toList, loneUnit? c = none) :
    beyondUtf8? s = none := by
  have hbefore : (s.toList.takeWhile fun c => !(loneUnit? c).isSome) = s.toList := by
    apply takeWhile_of_forall
    intro c hc
    rw [h c hc]
    rfl
  simp only [beyondUtf8?, unencodable?, hbefore, List.drop_length]

/-- What is signed in a token for a document. -/
def signedText (a : Algorithm) (document : Json) : List Char :=
  armored (header a).text ++ '.' :: armored document.text

theorem toList_write (a : Algorithm) (key : List UInt8) (document : Json) :
    (write a key document).toList = signedText a document ++
      '.' :: Base64Url.encode (digestOf a key (signedText a document)) := by
  rw [write, String.toList_ofList]
  rfl

theorem beyondUtf8?_write (a : Algorithm) (key : List UInt8) (document : Json) :
    beyondUtf8? (write a key document) = none := by
  apply beyondUtf8?_eq_none
  intro c hc
  have hletter : ∀ bs, c ∈ Base64Url.encode bs → c.toNat < 128 := by
    intro bs h
    obtain ⟨n, hn, rfl⟩ := Base64Url.exists_letter_of_mem h
    exact Base64Url.toNat_letter_lt hn
  have hsmall : c.toNat < 128 := by
    rw [toList_write, signedText] at hc
    simp only [List.mem_append, List.mem_cons] at hc
    rcases hc with (hc | rfl | hc) | rfl | hc
    · exact hletter _ hc
    · decide
    · exact hletter _ hc
    · decide
    · exact hletter _ hc
  exact loneUnit?_eq_none (by omega)

theorem unpaired_of_ascii {ss : List String} (h : ss.all (fun s => s.toList.all isAscii) = true)
    {s : String} (hs : s ∈ ss) : Unpaired s.toList := by
  apply unpaired_of_whole
  intro c hc
  have hall := List.all_eq_true.1 (List.all_eq_true.1 h s hs) c hc
  have hascii : c.toNat < 128 := of_decide_eq_true hall
  exact loneUnit?_eq_none (by omega)

theorem membersOf_bytes_text {ms : Json.Members}
    (hflat : ∀ m ∈ ms, Unpaired m.1.toList ∧ Json.Flat m.2) (hnames : (ms.map (·.1)).Nodup) :
    membersOf (bytes (Json.text (.obj ms))) = .ok ms := by
  rw [membersOf, ofBytes?_bytes]
  simp only [needed, bind, Except.bind, Json.read_text_obj hflat hnames]

def headerMembers (a : Algorithm) : Json.Members :=
  [("alg", .str (Named.name a)), ("typ", .str "JWT")]

theorem membersOf_header (a : Algorithm) :
    membersOf (bytes (header a).text) = .ok (headerMembers a) := by
  have hplain : ∀ s ∈ ["alg", "typ", "JWT", Named.name a], Unpaired s.toList := by
    intro s hs
    exact unpaired_of_ascii (by cases a <;> decide) hs
  apply membersOf_bytes_text
  · intro m hm
    simp only [List.mem_cons, List.not_mem_nil, or_false] at hm
    rcases hm with rfl | rfl
    · exact ⟨hplain _ (by simp), .text _ (hplain _ (by simp))⟩
    · exact ⟨hplain _ (by simp), .text _ (hplain _ (by simp))⟩
  · simp

/-- The parts of a token that was made for a document. -/
def partsOf (a : Algorithm) (key : List UInt8) (document : Json) : Parts :=
  ⟨headerMembers a, signedText a document, bytes document.text,
    digestOf a key (signedText a document)⟩

theorem hasParts_write (a : Algorithm) (key : List UInt8) (document : Json) :
    HasParts (write a key document) (partsOf a key document) := by
  have hdivides : Divides (write a key document) (armored (header a).text) (armored document.text)
      (Base64Url.encode (digestOf a key (signedText a document))) :=
    ⟨toList_write a key document, fun c hc => ne_dot_of_mem_encode hc,
      fun c hc => ne_dot_of_mem_encode hc⟩
  exact ⟨_, _, _, _, hdivides, rfl, Base64Url.decode?_encode _,
    membersOf_eq_ok_iff.1 (membersOf_header a), Base64Url.decode?_encode _,
    Base64Url.decode?_encode _⟩

/-- The algorithm is known, and the secret is a key and nothing else. -/
structure Signer.Ready (s : Signer) (a : Algorithm) (key : List UInt8) : Prop where
  algorithm : Named.ofName? s.algorithm = some a
  key : s.key = .ok key
  alone : ∃ secret, s.secret = some secret ∧ s.keys = .ok [.str secret]

variable {signer : Signer} {a : Algorithm} {key : List UInt8}

theorem ne_empty_of_ofName? {name : String} {a : Algorithm} (h : Named.ofName? name = some a) :
    name ≠ "" := by
  rw [← Named.name_of_ofName? h]
  cases a <;> decide

theorem verifies_write (hs : signer.Ready a key) (document : Json) :
    Verifies signer (write a key document) (partsOf a key document) where
  whole := beyondUtf8?_write a key document
  parts := hasParts_write a key document
  algorithm := by
    rw [← Named.name_of_ofName? hs.algorithm]
    rfl
  named := ne_empty_of_ofName? hs.algorithm
  signed := by
    obtain ⟨secret, hsecret, hkeys⟩ := hs.alone
    have hkey := hs.key
    rw [Signer.key, hsecret] at hkey
    exact ⟨a, _, hs.algorithm, hkeys, .here hkey rfl⟩

/-- What was signed with the secret is read with the secret. -/
theorem read_write (hs : signer.Ready a key) (document : Json) :
    read signer (write a key document) = membersOf (bytes document.text) :=
  (verifies_write hs document).read_eq

/-! The claims of a token. -/

/-- Texts by their names, as claims. -/
def asClaims (data : List (String × String)) : Json.Members := data.map fun d => (d.1, .str d.2)

/-- What a token can be issued for: each name has one text, no text or name has units without their
pair that make one when they are read, and no name is that of a claim which is not for texts. -/
structure Issuable (data : List (String × String)) : Prop where
  names : (data.map (·.1)).Nodup
  unpaired : ∀ d ∈ data, Unpaired d.1.toList ∧ Unpaired d.2.toList
  free : ∀ d ∈ data, d.1 ∉ ["nbf", "iat", "aud", "at_hash"]

/-- The claims of a token that is good up to a second. -/
def grantedUntil (claims : Json.Members) (last : Int) : Json.Members :=
  Json.Members.put (Json.Members.put claims "exp" (Json.int last)) "type" (.str "access")

theorem member?_asClaims (data : List (String × String)) (name : String) :
    Json.Members.member? (asClaims data) name = (data.lookup name).map .str := by
  induction data with
  | nil => rfl
  | cons d rest ih =>
    obtain ⟨k, v⟩ := d
    rw [asClaims, List.map_cons, Json.Members.member?_cons, List.lookup_cons]
    by_cases hk : k = name
    · simp [hk]
    · have hne : (name == k) = false := by simpa using Ne.symm hk
      rw [if_neg hk, hne]
      exact ih

variable {data : List (String × String)} {last : Int}

theorem Issuable.flat_asClaims (hd : Issuable data) {m : String × Json} (h : m ∈ asClaims data) :
    Unpaired m.1.toList ∧ Json.Flat m.2 := by
  obtain ⟨d, hmem, rfl⟩ := List.mem_map.1 h
  exact ⟨(hd.unpaired d hmem).1, .text _ (hd.unpaired d hmem).2⟩

theorem Issuable.flat_granted (hd : Issuable data)
    (hlast : (digits last.natAbs).length ≤ mostDigits) {m : String × Json}
    (h : m ∈ grantedUntil (asClaims data) last) : Unpaired m.1.toList ∧ Json.Flat m.2 := by
  have hplain : ∀ s ∈ ["exp", "type", "access"], Unpaired s.toList :=
    fun s hs => unpaired_of_ascii (by decide) hs
  rcases Json.Members.mem_put h with rfl | h
  · exact ⟨hplain _ (by simp), .text _ (hplain _ (by simp))⟩
  · rcases Json.Members.mem_put h with rfl | h
    · exact ⟨hplain _ (by simp), .whole last hlast⟩
    · exact hd.flat_asClaims h

theorem Issuable.nodup_granted (hd : Issuable data) (last : Int) :
    ((grantedUntil (asClaims data) last).map (·.1)).Nodup := by
  apply Json.Members.nodup_put
  apply Json.Members.nodup_put
  rw [asClaims, List.map_map]
  exact hd.names

theorem claim?_granted_exp (claims : Json.Members) (last : Int) :
    claim? (grantedUntil claims last) "exp" = some (Json.int last) := by
  rw [claim?, grantedUntil, Json.Members.member?_put_of_ne _ _ (by decide),
    Json.Members.member?_put_self]

theorem claim?_granted_type (claims : Json.Members) (last : Int) :
    claim? (grantedUntil claims last) "type" = some (.str "access") :=
  Json.Members.member?_put_self _ _ _

theorem claim?_granted_of_ne {name : String} (hexp : name ≠ "exp") (htype : name ≠ "type") :
    claim? (grantedUntil (asClaims data) last) name = (data.lookup name).map .str := by
  rw [claim?, grantedUntil, Json.Members.member?_put_of_ne _ _ (Ne.symm htype),
    Json.Members.member?_put_of_ne _ _ (Ne.symm hexp), member?_asClaims]

theorem Issuable.claim?_granted_eq_none (hd : Issuable data) {name : String}
    (h : name ∈ ["nbf", "iat", "aud", "at_hash"]) :
    claim? (grantedUntil (asClaims data) last) name = none := by
  have hnames : ∀ s ∈ ["nbf", "iat", "aud", "at_hash"], s ≠ "exp" ∧ s ≠ "type" := by decide
  have hnone : data.lookup name = none := by
    rw [List.lookup_eq_none_iff]
    intro d hmem
    have hne : d.1 ≠ name := fun he => hd.free d hmem (he ▸ h)
    simpa using Ne.symm hne
  rw [claim?_granted_of_ne (hnames name h).1 (hnames name h).2, hnone]
  rfl

/-- Claims that are all texts, but for the time of expiry, allow any second up to that time. -/
theorem Issuable.allows_granted (hd : Issuable data) {now : Int} (hle : now ≤ last) :
    Allows now (grantedUntil (asClaims data) last) := by
  have htext : ∀ name, name ≠ "exp" → name ≠ "type" → ∀ v,
      claim? (grantedUntil (asClaims data) last) name = some v → ∃ text, v = .str text := by
    intro name hexp htype v hv
    rw [claim?_granted_of_ne hexp htype] at hv
    obtain ⟨text, _, rfl⟩ := Option.map_eq_some_iff.1 hv
    exact ⟨text, rfl⟩
  have hmissing : ∀ name ∈ ["nbf", "iat", "aud", "at_hash"], ∀ v,
      claim? (grantedUntil (asClaims data) last) name ≠ some v := by
    intro name hname v hv
    rw [hd.claim?_granted_eq_none hname] at hv
    cases hv
  constructor
  case issued => exact fun v hv => absurd hv (hmissing "iat" (by simp) v)
  case begun => exact fun v hv => absurd hv (hmissing "nbf" (by simp) v)
  case unexpired =>
    intro v hv
    cases (claim?_granted_exp _ _).symm.trans hv
    exact ⟨last, rfl, hle⟩
  case unaddressed => exact hd.claim?_granted_eq_none (by simp)
  case subject => exact htext "sub" (by decide) (by decide)
  case named => exact htext "jti" (by decide) (by decide)
  case undigested => exact hd.claim?_granted_eq_none (by simp)

theorem Issuable.checkClaims_granted (hd : Issuable data) (now last : Int) :
    checkClaims now (grantedUntil (asClaims data) last) =
      if now ≤ last then .ok () else .error .unusable := by
  by_cases hle : now ≤ last
  · rw [if_pos hle]
    exact checkClaims_eq_ok_iff.2 (hd.allows_granted hle)
  · rw [if_neg hle]
    cases hcheck : checkClaims now (grantedUntil (asClaims data) last) with
    | ok _ =>
      obtain ⟨n, hn, hnow⟩ :=
        (checkClaims_eq_ok_iff.1 hcheck).unexpired _ (claim?_granted_exp _ _)
      cases hn
      exact absurd hnow hle
    | error e =>
      rcases checkClaims_error hcheck with rfl | hmistimed
      · rfl
      · cases hmistimed with
        | issued hv _ => cases (hd.claim?_granted_eq_none (by simp)).symm.trans hv
        | begun _ hv _ => cases (hd.claim?_granted_eq_none (by simp)).symm.trans hv
        | unexpired _ _ hv h =>
          cases (claim?_granted_exp _ _).symm.trans hv
          cases h

theorem verify_write (hs : signer.Ready a key) (hd : Issuable data)
    (hlast : (digits last.natAbs).length ≤ mostDigits) (checked : WallTime) :
    verify signer checked "access" (write a key (.obj (grantedUntil (asClaims data) last))) =
      if checked.unixSeconds ≤ last then .ok (grantedUntil (asClaims data) last)
      else .error .unusable := by
  have hread : read signer (write a key (.obj (grantedUntil (asClaims data) last))) =
      .ok (grantedUntil (asClaims data) last) := by
    rw [read_write hs]
    exact membersOf_bytes_text (fun m hm => hd.flat_granted hlast hm) (hd.nodup_granted last)
  rw [verify, hread]
  simp only [bind, Except.bind, hd.checkClaims_granted, claim?_granted_type]
  by_cases hle : checked.unixSeconds ≤ last
  · simp only [hle, if_true]
  · simp only [hle, if_false]

/-! The second of expiry. -/

/-- How long a token is issued for: as long as it says, or for the usual number of minutes where it
says nothing. An empty span says nothing. -/
def Lasts (span : Option Int) (minutes micros : Int) : Prop :=
  (span = some micros ∧ micros ≠ 0) ∨ ((span = none ∨ span = some 0) ∧ micros = minutes * 60000000)

theorem endMicros_eq : WallTime.endMicros = 315537897600000000 := by decide

theorem checkSpan_eq_ok {micros : Int} (h : micros.natAbs < WallTime.endMicros) :
    checkSpan micros = .ok () := by
  rw [endMicros_eq] at h
  have hdays : -3652060 ≤ Int.fdiv micros microsPerDay ∧
      Int.fdiv micros microsPerDay ≤ 3652060 := by
    rw [Int.fdiv_eq_ediv_of_nonneg _ (by decide), microsPerDay]
    omega
  simp only [checkSpan]
  rw [if_neg (by omega), if_neg (by omega)]

theorem expiry_eq_ok {created : WallTime} {span : Option Int} {minutes micros : Int}
    (hcreated : created.micros < WallTime.endMicros) (hspan : Lasts span minutes micros)
    (hstart : 0 ≤ created.micros + micros) (hend : created.micros + micros < WallTime.endMicros) :
    expiry created span minutes =
      .ok (WallTime.unixSeconds ⟨(created.micros + micros).toNat⟩) := by
  have hcheck : checkSpan micros = .ok () := checkSpan_eq_ok (by omega)
  have hempty : checkSpan 0 = .ok () := by decide
  have hlast : (if 0 ≤ (created.micros : Int) + micros ∧
      (created.micros : Int) + micros < WallTime.endMicros then
        Except.ok (WallTime.unixSeconds ⟨((created.micros : Int) + micros).toNat⟩)
      else Except.error Unissued.outOfCalendar) =
      .ok (WallTime.unixSeconds ⟨(created.micros + micros).toNat⟩) := if_pos ⟨hstart, hend⟩
  unfold expiry
  rcases hspan with ⟨rfl, hne⟩ | ⟨rfl | rfl, rfl⟩
  · have hmicros : ((some micros).filter (· ≠ 0)).getD (minutes * 60000000) = micros := by
      rw [Option.filter_some_pos (by simpa using hne), Option.getD_some]
    simp only [hmicros, hcheck, bind, Except.bind, hlast]
  · simp only [Option.filter_none, Option.getD_none, hcheck, bind, Except.bind, hlast]
  · -- An empty span passes its own check before the usual minutes take its place.
    have hmicros : ((some (0 : Int)).filter (· ≠ 0)).getD (minutes * 60000000) =
        minutes * 60000000 := rfl
    simp only [hmicros, hempty, hcheck, bind, Except.bind, hlast]

theorem length_digits_unixSeconds {t : WallTime} (h : t.micros < WallTime.endMicros) :
    (digits t.unixSeconds.natAbs).length ≤ mostDigits := by
  rw [endMicros_eq] at h
  have hbound : t.unixSeconds.natAbs ≤ 315537897600 := by
    have hepoch : WallTime.epochSeconds = 62135596800 := by decide
    rw [WallTime.unixSeconds, hepoch]
    omega
  have hlong : (digits 315537897600).length ≤ mostDigits := by decide +kernel
  exact Nat.le_trans (length_digits_mono hbound) hlong

theorem issue_eq (hs : signer.Ready a key) {created : WallTime} {span : Option Int} {minutes : Int}
    (h : expiry created span minutes = .ok last) (claims : Json.Members) :
    issue signer created span minutes claims =
      .ok (write a key (.obj (grantedUntil claims last))) := by
  rw [issue, h]
  simp only [bind, Except.bind, sign, hs.algorithm, hs.key]
  rfl

/-! Reading a token again. -/

/-- Who shows a token that is refused for this reason is told so. -/
def Refusal.IsTold (e : Refusal) : Prop :=
  ∃ answer, (Http.Problem.refused e).response? = some answer ∧ answer.status = 401

/-- A token stands for the texts of some claims up to a second, with that second and the kind in
the place of what the claims say there. From the next second on it is refused. -/
structure GoodUntil (signer : Signer) (data : List (String × String)) (token : String)
    (last : Int) : Prop where
  good : ∀ checked : WallTime, checked.unixSeconds ≤ last →
    ∃ payload, verify signer checked "access" token = .ok payload ∧
      claim? payload "type" = some (.str "access") ∧
      claim? payload "exp" = some (Json.int last) ∧
      ∀ name, name ≠ "exp" → name ≠ "type" →
        claim? payload name = (data.lookup name).map .str
  expired : ∀ checked : WallTime, last < checked.unixSeconds →
    ∃ e, verify signer checked "access" token = .error e ∧ e.IsTold

theorem goodUntil_write (hs : signer.Ready a key) (hd : Issuable data)
    (hlast : (digits last.natAbs).length ≤ mostDigits) :
    GoodUntil signer data (write a key (.obj (grantedUntil (asClaims data) last))) last := by
  constructor
  · intro checked hle
    refine ⟨grantedUntil (asClaims data) last, ?_, claim?_granted_type _ _,
      claim?_granted_exp _ _, fun name hexp htype => claim?_granted_of_ne hexp htype⟩
    rw [verify_write hs hd hlast, if_pos hle]
  · intro checked hlt
    refine ⟨.unusable, ?_, _, rfl, rfl⟩
    rw [verify_write hs hd hlast, if_neg (by omega)]

/-- Whatever claims a token is issued for, at whatever time and for whatever span, it is read back
with these claims up to the second in which the span ends, and is refused with 401 after it. A span
that is empty stands for the usual number of minutes. -/
theorem issue_verify (hs : signer.Ready a key) (hd : Issuable data)
    {created : WallTime} {span : Option Int} {minutes micros : Int}
    (hcreated : created.micros < WallTime.endMicros) (hspan : Lasts span minutes micros)
    (hstart : 0 ≤ created.micros + micros) (hend : created.micros + micros < WallTime.endMicros) :
    ∃ token, issue signer created span minutes (asClaims data) = .ok token ∧
      GoodUntil signer data token (WallTime.unixSeconds ⟨(created.micros + micros).toNat⟩) := by
  have hexpiry := expiry_eq_ok hcreated hspan hstart hend
  have hlast : (digits (WallTime.unixSeconds
      ⟨(created.micros + micros).toNat⟩).natAbs).length ≤ mostDigits := by
    apply length_digits_unixSeconds
    show (created.micros + micros).toNat < WallTime.endMicros
    omega
  exact ⟨_, issue_eq hs hexpiry (asClaims data), goodUntil_write hs hd hlast⟩

def harbourSigner : Signer := ⟨"HS256", some "k"⟩

/-- Claims that already say when they expire, and what kind they are of. -/
def harbourClaims : List (String × String) :=
  [("sub", "ana"), ("exp", "never"), ("type", "refresh")]

theorem ready_harbourSigner : harbourSigner.Ready .hs256 (bytes "k") where
  algorithm := by decide
  key := by decide
  alone := ⟨"k", rfl, keys_of_unreadable (show Json.read "k" = .error .malformed from rfl)⟩

theorem issuable_harbourClaims : Issuable harbourClaims where
  names := by decide
  unpaired := fun _ hd =>
    ⟨unpaired_of_ascii (by decide) (List.mem_map_of_mem (f := (·.1)) hd),
      unpaired_of_ascii (by decide) (List.mem_map_of_mem (f := (·.2)) hd)⟩
  free := by decide

/-- A token that is issued a quarter of a second after noon, for half a second less than nothing,
was good until the last second before noon. -/
theorem issue_verify_harbour :
    harbourSigner.Ready .hs256 (bytes "k") ∧ Issuable harbourClaims ∧
    Lasts (some (-500000)) 60 (-500000) ∧
    ∃ token, issue harbourSigner ⟨63902908800250000⟩ (some (-500000)) 60
        (asClaims harbourClaims) = .ok token ∧
      GoodUntil harbourSigner harbourClaims token 1767311999 := by
  have hspan : Lasts (some (-500000)) 60 (-500000) := Or.inl ⟨rfl, by decide⟩
  exact ⟨ready_harbourSigner, issuable_harbourClaims, hspan,
    issue_verify ready_harbourSigner issuable_harbourClaims (by decide) hspan (by decide)
      (by decide)⟩

/-- A token that is issued at noon for no time at all is not refused after noon. -/
theorem empty_span_outlived :
    ∃ token, issue harbourSigner ⟨63902908800000000⟩ (some 0) 60 (asClaims harbourClaims) =
        .ok token ∧
      ¬ GoodUntil harbourSigner harbourClaims token
        (WallTime.unixSeconds ⟨63902908800000000⟩) := by
  have hexpiry : expiry ⟨63902908800000000⟩ (some 0) 60 = .ok 1767315600 := by decide
  have hlast : (digits (1767315600 : Int).natAbs).length ≤ mostDigits := by decide +kernel
  refine ⟨_, issue_eq ready_harbourSigner hexpiry _, ?_⟩
  intro hgood
  obtain ⟨e, he, _⟩ := hgood.expired ⟨63902908801000000⟩ (by decide)
  rw [verify_write ready_harbourSigner issuable_harbourClaims hlast, if_pos (by decide)] at he
  cases he

end DeployRegistry.Token
