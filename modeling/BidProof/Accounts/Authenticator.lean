import BidProof.Accounts.Requests
import BidProof.Lib.Base32
import BidProof.Lib.Percent
import Mathlib.Algebra.Group.Int.Defs
import Mathlib.Algebra.Group.Nat.Defs

/-!
# Authenticators

`totp` makes a secret and the URI that an authenticator scans, and computes the code of a counter;
the authenticator reads the secret out of the URI (`scan`) and computes the code of its own clock.
What HMAC-SHA-1 is does not matter here.

`scanned_code_accepted`: whatever the random bytes and the name of the account are, the
authenticator gets both out of the URI, and the server accepts its codes, typed with or without
blanks, as long as the clocks are at most one period apart and no later code has been used.
-/

namespace BidProof.Accounts

/-- HMAC-SHA-1 of a key and a message. -/
abbrev Hmac := List UInt8 → List UInt8 → List UInt8

/-! ## totp.py -/

def DIGITS : ℕ := 6

/-- `new_secret`, with the bytes of `secrets.token_bytes`. -/
def newSecret (token_bytes : List UInt8) : String :=
  String.ofList ((Base32.encode token_bytes).rdropWhile fun c => c = '=')

/-- `struct.pack(">Q", counter)` -/
def packed (counter : ℕ) : List UInt8 :=
  (List.range 8).map fun i => UInt8.ofNat (counter / 256 ^ (7 - i))

/-- `str(n).zfill(digits)` -/
def zfill (n digits : ℕ) : String := String.ofList (List.leftpad digits '0' (Nat.toDigits 10 n))

/-- The code of a key and a counter. -/
def hotp (mac : Hmac) (key : List UInt8) (counter : ℕ) : String :=
  let digest := mac key (packed counter)
  let offset := ((digest.getLast?.getD 0) &&& 0x0F).toNat
  let truncated := ((digest.drop offset).take 4).foldl (fun n b => n * 256 + b.toNat) 0 % 2 ^ 31
  zfill (truncated % 10 ^ DIGITS) DIGITS

/-- `code_for_counter`; a secret that is not Base32 and a counter out of range raise. -/
def codeForCounter (mac : Hmac) (secret : String) (counter : ℤ) : Option String :=
  match Base32.decode (Base32.fill secret.toList) with
  | none => none
  | some key => if 0 ≤ counter ∧ counter < 2 ^ 64 then some (hotp mac key counter.toNat) else none

/-- What `quote(.., safe="")` leaves as it is. -/
def unquoted (c : Char) : Bool := c.isAlphanum || c ∈ ['_', '.', '-', '~']

/-- `quote(text, safe="")` -/
def quote (text : String) : String := String.ofList (Percent.encode unquoted text.toList)

def provisioningUri (secret account issuer : String) : String :=
  "otpauth://totp/" ++ quote (issuer ++ ":" ++ account) ++ "?secret=" ++ secret ++ "&issuer=" ++
    quote issuer ++ "&algorithm=SHA1&digits=" ++ toString DIGITS ++ "&period=" ++
      toString periodSeconds

/-! ## The authenticator -/

/-- An account in an authenticator. -/
structure Scanned where
  issuer : List Char
  account : List Char
  key : List UInt8
  algorithm : List Char
  digits : List Char
  period : List Char
  deriving DecidableEq

/-- The parameters of a URI. -/
def parameters (query : List Char) : List (List Char × List Char) :=
  (query.splitOn '&').map fun pair =>
    (Percent.decode (fun _ => []) (pair.takeWhile (· ≠ '=')),
      Percent.decode (fun _ => []) ((pair.dropWhile (· ≠ '=')).drop 1))

/-- What comes behind the scheme: the label is an issuer and an account, with a colon between. -/
def scanParts (parts : List Char) : Option Scanned :=
  let label := Percent.decode (fun _ => []) (parts.takeWhile (· ≠ '?'))
  let query := parameters ((parts.dropWhile (· ≠ '?')).drop 1)
  do
    let secret ← query.lookup "secret".toList
    let key ← Base32.decode (Base32.fill secret)
    let algorithm ← query.lookup "algorithm".toList
    let digits ← query.lookup "digits".toList
    let period ← query.lookup "period".toList
    some
      { issuer := label.takeWhile (· ≠ ':')
        account := (label.dropWhile (· ≠ ':')).drop 1
        key := key
        algorithm := algorithm
        digits := digits
        period := period }

/-- What an authenticator makes of a URI. -/
def scan (uri : String) : Option Scanned :=
  let scheme := "otpauth://totp/".toList
  if scheme <+: uri.toList then scanParts (uri.toList.drop scheme.length) else none

/-- The code that an authenticator shows when its clock says `moment`. -/
def Scanned.shown (mac : Hmac) (scanned : Scanned) (moment : Time) : String :=
  hotp mac scanned.key (counterAt moment).toNat

/-! ## Secrets and codes -/

section

variable {mac : Hmac} {token_bytes : List UInt8} {account : String} {c : Char}

theorem toList_newSecret : (newSecret token_bytes).toList = Base32.digits token_bytes := by
  rw [newSecret, String.toList_ofList]
  exact Base32.rdropWhile_fill

theorem decode_newSecret :
    Base32.decode (Base32.fill (newSecret token_bytes).toList) = some token_bytes := by
  rw [toList_newSecret, Base32.decode_fill]

/-- A character that is no digit of a secret. -/
theorem notMem_newSecret (h : ∀ n < 32, c ≠ Base32.digit n) :
    c ∉ (newSecret token_bytes).toList := by
  rw [toList_newSecret]
  intro hc
  obtain ⟨n, hn, he⟩ := List.mem_map.1 hc
  exact h n (Base32.lt_of_mem_values hn) he.symm

theorem isDigit_of_mem_hotp {key : List UInt8} {counter : ℕ}
    (h : c ∈ (hotp mac key counter).toList) :
    c.isDigit = true := by
  simp only [hotp, zfill, String.toList_ofList, List.leftpad] at h
  obtain h | h := List.mem_append.1 h
  · rw [List.eq_of_mem_replicate h]
    rfl
  · exact Nat.isDigit_of_mem_toDigits (by decide) (by decide) h

theorem hotp_ne_empty {key : List UInt8} {counter : ℕ} : hotp mac key counter ≠ "" := by
  intro h
  have hnil : (hotp mac key counter).toList = [] := by
    rw [h]
    rfl
  simp only [hotp, zfill, String.toList_ofList, List.leftpad] at hnil
  exact Nat.toDigits_ne_nil (List.append_eq_nil_iff.1 hnil).2

/-! ## Scanning -/

theorem toList_quote (text : String) : (quote text).toList = Percent.encode unquoted text.toList :=
  String.toList_ofList

theorem decode_quote {errors : List UInt8 → List Char} (text : String) :
    Percent.decode errors (quote text).toList = text.toList := by
  rw [toList_quote]
  exact Percent.decode_encode (by decide)

theorem notMem_quote {text : String} (hc : unquoted c = false) (he : Percent.isEscape c = false) :
    c ∉ (quote text).toList := by
  rw [toList_quote]
  intro h
  obtain ⟨h, -⟩ | h := Percent.mem_encode h
  · rw [hc] at h
    cases h
  · rw [he] at h
    cases h

/-- The parameters of a query whose names and values are read one by one. -/
theorem parameters_intercalate {pairs : List (List Char × List Char)} (hne : pairs ≠ [])
    (hnames : ∀ pair ∈ pairs, '=' ∉ pair.1 ∧ '%' ∉ pair.1 ∧ '&' ∉ pair.1 ∧ '&' ∉ pair.2) :
    parameters (['&'].intercalate (pairs.map fun pair => pair.1 ++ '=' :: pair.2)) =
      pairs.map fun pair => (pair.1, Percent.decode (fun _ => []) pair.2) := by
  rw [parameters, List.splitOn_intercalate]
  · rw [List.map_map]
    apply List.map_congr_left
    intro pair hpair
    obtain ⟨heq, hpercent, -⟩ := hnames pair hpair
    obtain ⟨hname, hvalue⟩ := Percent.cut_append heq pair.2
    simp only [Function.comp_apply, hname, hvalue, Percent.decode_eq_self hpercent]
  · intro piece hpiece hamp
    obtain ⟨pair, hpair, rfl⟩ := List.mem_map.1 hpiece
    obtain ⟨-, -, hfst, hsnd⟩ := hnames pair hpair
    obtain h | h := List.mem_append.1 hamp
    · exact hfst h
    · obtain h | h := List.mem_cons.1 h
      · exact absurd h (by decide)
      · exact hsnd h
  · simpa using hne

/-- The parameters of the URI. -/
def written (secret issuer : String) : List (List Char × List Char) :=
  [("secret".toList, secret.toList), ("issuer".toList, (quote issuer).toList),
    ("algorithm".toList, "SHA1".toList), ("digits".toList, "6".toList),
      ("period".toList, "30".toList)]

theorem toList_pieces (a b c d e f g h i j : String) :
    (a ++ b ++ c ++ d ++ e ++ f ++ g ++ h ++ i ++ j).toList = a.toList ++ (b.toList ++ (c.toList ++
      (d.toList ++ (e.toList ++
        (f.toList ++ (g.toList ++ (h.toList ++ (i.toList ++ j.toList)))))))) := by
  simp only [String.toList_append, List.append_assoc]

theorem intercalate_five (a b c d e : List Char) : ['&'].intercalate [a, b, c, d, e] =
    a ++ '&' :: (b ++ '&' :: (c ++ '&' :: (d ++ '&' :: e))) := by
  simp [List.intercalate]

theorem toList_provisioningUri (secret issuer : String) :
    (provisioningUri secret account issuer).toList =
      "otpauth://totp/".toList ++ ((quote (issuer ++ ":" ++ account)).toList ++
        '?' :: ['&'].intercalate
          ((written secret issuer).map fun pair => pair.1 ++ '=' :: pair.2)) := by
  have hsecret : "?secret=".toList = '?' :: ("secret".toList ++ ['=']) := by decide +kernel
  have hissuer : "&issuer=".toList = '&' :: ("issuer".toList ++ ['=']) := by decide +kernel
  have hrest : "&algorithm=SHA1&digits=".toList ++
      ((toString DIGITS).toList ++ ("&period=".toList ++ (toString periodSeconds).toList)) =
      '&' :: ("algorithm".toList ++ '=' :: "SHA1".toList ++
        '&' :: ("digits".toList ++ '=' :: "6".toList ++
          '&' :: ("period".toList ++ '=' :: "30".toList))) := by decide +kernel
  refine (toList_pieces _ _ _ _ _ _ _ _ _ _).trans ?_
  rw [hrest, hsecret, hissuer, written, List.map_cons, List.map_cons, List.map_cons, List.map_cons,
    List.map_cons, List.map_nil, intercalate_five]
  generalize "secret".toList = n₁
  generalize "issuer".toList = n₂
  generalize "algorithm".toList = n₃
  generalize "digits".toList = n₄
  generalize "period".toList = n₅
  simp only [List.append_assoc, List.cons_append, List.nil_append]

theorem lookup_written (a b c d e : List Char) :
    let query := [("secret".toList, a), ("issuer".toList, b), ("algorithm".toList, c),
      ("digits".toList, d), ("period".toList, e)]
    query.lookup "secret".toList = some a ∧ query.lookup "algorithm".toList = some c ∧
      query.lookup "digits".toList = some d ∧ query.lookup "period".toList = some e := by
  refine ⟨rfl, rfl, rfl, rfl⟩

/-- The authenticator gets out of the URI what was put in. -/
theorem scan_provisioningUri :
    scan (provisioningUri (newSecret token_bytes) account "BidProof") = some
      { issuer := "BidProof".toList
        account := account.toList
        key := token_bytes
        algorithm := "SHA1".toList
        digits := "6".toList
        period := "30".toList } := by
  have hpercent : '%' ∉ (newSecret token_bytes).toList := notMem_newSecret (by decide)
  have hamp : '&' ∉ (newSecret token_bytes).toList := notMem_newSecret (by decide)
  have hlabel : '?' ∉ (quote ("BidProof" ++ ":" ++ account)).toList :=
    notMem_quote (by decide) (by decide)
  have hcolon :
      ("BidProof" ++ ":" ++ account).toList = "BidProof".toList ++ ':' :: account.toList := by
    rw [String.toList_append, String.toList_append, List.append_assoc]
    rfl
  have hquery : parameters (['&'].intercalate
        ((written (newSecret token_bytes) "BidProof").map fun pair => pair.1 ++ '=' :: pair.2)) =
      [("secret".toList, (newSecret token_bytes).toList), ("issuer".toList, "BidProof".toList),
        ("algorithm".toList, "SHA1".toList), ("digits".toList, "6".toList),
        ("period".toList, "30".toList)] := by
    rw [parameters_intercalate (by simp [written])]
    · have hplain : ∀ s : List Char, '%' ∉ s → Percent.decode (fun _ => []) s = s :=
        fun s hs => Percent.decode_eq_self hs
      simp only [written, List.map_cons, List.map_nil, decode_quote, hplain _ hpercent,
        hplain "SHA1".toList (by decide), hplain "6".toList (by decide),
          hplain "30".toList (by decide)]
    · simp only [written, List.forall_mem_cons]
      refine ⟨⟨by decide, by decide, by decide, hamp⟩,
        ⟨by decide, by decide, by decide, notMem_quote (by decide) (by decide)⟩,
        by decide, by decide, by decide, fun _ h => absurd h List.not_mem_nil⟩
  obtain ⟨hbefore, hafter⟩ := Percent.cut_append hlabel (['&'].intercalate
    ((written (newSecret token_bytes) "BidProof").map fun pair => pair.1 ++ '=' :: pair.2))
  have hname : ':' ∉ "BidProof".toList := by decide
  obtain ⟨hissuer, haccount⟩ := Percent.cut_append hname account.toList
  obtain ⟨hsecret, halgorithm, hdigits, hperiod⟩ := lookup_written (newSecret token_bytes).toList
    "BidProof".toList "SHA1".toList "6".toList "30".toList
  rw [scan, toList_provisioningUri, if_pos (List.prefix_append _ _), List.drop_left, scanParts]
  simp only [hbefore, hafter, hquery, hsecret, halgorithm, hdigits, hperiod,
    decode_quote, hcolon, hissuer, haccount, decode_newSecret,
    Option.bind_eq_bind, Option.bind_some]

/-! ## Codes -/

variable (env : Env) (mac : Hmac)

/-- The server computes codes as `totp` does. -/
def Env.withTotp : Env :=
  { env with code_for_counter := fun secret counter => (codeForCounter mac secret counter).getD "" }

/-- What the server makes of a code that somebody has typed. -/
def entered (typed : String) : String := String.ofList ((Text.strip typed.toList).filter (· ≠ ' '))

theorem code_newSecret {counter : ℤ} (h : 0 ≤ counter) (hmax : counter < 2 ^ 64) :
    (env.withTotp mac).code_for_counter (newSecret token_bytes) counter =
      hotp mac token_bytes counter.toNat := by
  show (codeForCounter mac (newSecret token_bytes) counter).getD "" = _
  rw [codeForCounter, decode_newSecret]
  simp only [if_pos (And.intro h hmax), Option.getD_some]

/-- The counter is that of the moment or one beside it. -/
def Near (counter : ℤ) (moment : Time) : Prop :=
  counterAt moment - 1 ≤ counter ∧ counter ≤ counterAt moment + 1

/-- A code is accepted if it belongs to one of three counters, and none as late has been used. -/
theorem isSome_totpVerify {typed : String} {last_counter : ℤ} {now : Time}
    (hpos : 0 < counterAt now)
    (hmax : counterAt now + 1 < 2 ^ 64) :
    (totpVerify (env.withTotp mac) (newSecret token_bytes) typed last_counter now).isSome = true ↔
      ∃ counter : ℤ, Near counter now ∧ last_counter < counter ∧
        entered typed = hotp mac token_bytes counter.toNat := by
  have hcandidate : ∀ counter : ℤ, counter ∈ [counterAt now - 1, counterAt now, counterAt now + 1] ↔
      Near counter now := by
    intro counter
    simp only [Near, List.mem_cons, List.not_mem_nil, or_false]
    omega
  have hcode : ∀ counter : ℤ, Near counter now →
      (env.withTotp mac).code_for_counter (newSecret token_bytes) counter =
        hotp mac token_bytes counter.toNat := by
    rintro counter ⟨hl, hu⟩
    exact code_newSecret env mac (by omega) (by omega)
  unfold totpVerify
  show (if (entered typed).toList.all Char.isDigit && decide (entered typed ≠ "")
    then _ else none).isSome = true ↔ _
  constructor
  · intro h
    split at h
    · obtain ⟨counter, hmem, hfound⟩ := List.find?_isSome.1 h
      simp only [Bool.and_eq_true, decide_eq_true_eq] at hfound
      have hnear := (hcandidate counter).1 hmem
      refine ⟨counter, hnear, hfound.1, ?_⟩
      rw [← hcode counter hnear]
      exact hfound.2.symm
    · cases h
  · rintro ⟨counter, hnear, hlast, htyped⟩
    have hdigits :
        ((entered typed).toList.all Char.isDigit && decide (entered typed ≠ "")) = true := by
      rw [htyped, Bool.and_eq_true]
      exact ⟨List.all_eq_true.2 fun c => isDigit_of_mem_hotp, decide_eq_true hotp_ne_empty⟩
    rw [if_pos hdigits, List.find?_isSome]
    refine ⟨counter, (hcandidate counter).2 hnear, ?_⟩
    rw [hcode counter hnear, Bool.and_eq_true]
    exact ⟨decide_eq_true hlast, decide_eq_true htyped.symm⟩

/-- For all random bytes and every name of an account, an authenticator gets the account and the
bytes out of the URI; and from then on the server accepts what is typed if and only if it is the
code that the authenticator shows at some moment of the period of the server's clock or of one
beside it, later than the last one used. -/
theorem scanned_code_accepted (token_bytes : List UInt8) (account : String) :
    ∃ scanned, scan (provisioningUri (newSecret token_bytes) account "BidProof") = some scanned ∧
      scanned.issuer = "BidProof".toList ∧ scanned.account = account.toList ∧
      scanned.key = token_bytes ∧
      ∀ (typed : String) (last_counter : ℤ) (now : Time), 0 < counterAt now →
        counterAt now + 1 < 2 ^ 64 →
        ((totpVerify (env.withTotp mac) (newSecret token_bytes) typed last_counter now).isSome
            = true ↔
          ∃ moment : Time, Near (counterAt moment) now ∧
            last_counter < counterAt moment ∧ entered typed = scanned.shown mac moment) := by
  refine ⟨_, scan_provisioningUri, rfl, rfl, rfl, ?_⟩
  intro typed last_counter now hpos hmax
  rw [isSome_totpVerify env mac hpos hmax]
  constructor
  · rintro ⟨counter, hnear, hlast, htyped⟩
    have hmoment : counterAt (counter.toNat * (periodSeconds * 1000000)) = counter := by
      have hnonneg : 0 ≤ counter := by
        have := hnear.1
        omega
      simp only [counterAt, periodSeconds]
      omega
    refine ⟨counter.toNat * (periodSeconds * 1000000), ?_, ?_, ?_⟩
    · rwa [hmoment]
    · rwa [hmoment]
    · rw [htyped, Scanned.shown, hmoment]
  · rintro ⟨moment, hnear, hlast, htyped⟩
    exact ⟨counterAt moment, hnear, hlast, htyped⟩

/-- HMAC-SHA-1 of the first counter under the key of the sample. -/
def sampleHmac (key message : List UInt8) : List UInt8 :=
  if key = [1, 2, 3, 4, 5] ∧ message = [0, 0, 0, 0, 0, 0, 0, 1] then
    [28, 146, 193, 27, 193, 56, 24, 243, 209, 53, 93, 151, 137, 186, 33, 1, 150, 197, 244, 148]
  else []

theorem scanned_code_accepted_sample :
    ∃ scanned,
      scan (provisioningUri (newSecret [1, 2, 3, 4, 5]) "a:b?c" "BidProof") = some scanned ∧
      (totpVerify (sampleEnv.withTotp sampleHmac) (newSecret [1, 2, 3, 4, 5])
        " 195 443 " 0 60000000).isSome = true := by
  obtain ⟨scanned, hscan, -, -, hkey, hcodes⟩ :=
    scanned_code_accepted sampleEnv sampleHmac [1, 2, 3, 4, 5] "a:b?c"
  refine ⟨scanned, hscan, (hcodes _ _ _ (by decide) (by decide)).2 ⟨31000000, ?_, by decide, ?_⟩⟩
  · unfold Near
    decide
  · rw [Scanned.shown, hkey]
    decide +kernel

end

end BidProof.Accounts
