import EloquentEntity.Database.Url
import EloquentEntity.Proofs.Database.PercentCoding
import EloquentEntity.Proofs.Text.Ends
import EloquentEntity.Proofs.Text.Integer

/-!
Database URLs are read back as they are written, and are shown without their password.

A URL falls into its parts where the first character stands that its part cannot hold. Such
characters are percent-coded in credentials and the name of the database, so that no boundary moves;
and in the text after a user with a password, only the first at sign counts.
-/

namespace EloquentEntity.DatabaseUrl

open Text

variable {s t u user password host rest : List Char} {c x : Char}

/-! ### Splitting -/

lemma splitLast_eq_none (h : x ∉ s) : splitLast x s = none := by
  rw [splitLast, show (s.reverse.takeWhile (· != x)).reverse = s from afterLast_of_notMem h]
  exact if_pos rfl

lemma splitLast_append (h : x ∉ t) (s : List Char) : splitLast x (s ++ x :: t) = some (s, t) := by
  rw [splitLast, show ((s ++ x :: t).reverse.takeWhile (· != x)).reverse = t from
    afterLast_append h s]
  have hlength : (s ++ x :: t).length = s.length + t.length + 1 := by
    rw [List.length_append, List.length_cons, Nat.add_assoc]
  rw [if_neg (by omega), hlength, show s.length + t.length + 1 - t.length - 1 = s.length by omega,
    List.take_left]

/-! ### Credentials -/

def isUserChar (c : Char) : Bool := c != ':' && c != '/'

/-- A user and a password go to the first at sign after them. -/
lemma credentials_password (huser : ∀ c ∈ user, isUserChar c) (hpassword : '@' ∉ password)
    (s : List Char) :
    credentials (user ++ ':' :: (password ++ '@' :: s)) = (some user, some password, s) := by
  have hfirst : (user ++ ':' :: (password ++ '@' :: s)).takeWhile isUserChar = user :=
    takeWhile_append_stop huser (by simp [isUserChar])
  unfold isUserChar at hfirst
  simp only [credentials, hfirst, List.drop_left, takeWhile_bne_append hpassword]

/-- Without an at sign behind it, a colon begins no password. -/
lemma credentials_of_notMem (hu : ∀ c ∈ u, isUserChar c)
    (hrest : ∀ c ∈ rest.head?, isUserChar c = false) (hat : '@' ∉ rest) :
    credentials (u ++ rest) =
      match splitLast '@' u with
      | some (user, r) => (some user, none, r ++ rest)
      | none => (none, none, u ++ rest) := by
  have hfirst : (u ++ rest).takeWhile isUserChar = u := takeWhile_append_stop hu hrest
  unfold isUserChar at hfirst
  simp only [credentials, hfirst, List.drop_left]
  split
  · next r =>
    have hall : r.takeWhile (· != '@') = r :=
      takeWhile_bne_of_notMem (mt (List.mem_cons_of_mem _) hat)
    cases splitLast '@' u <;> simp only [hall, List.drop_length]
  · rfl

/-! ### Host, port and database -/

def isHostChar (c : Char) : Bool := c != '/' && c != ':' && c != '?'

lemma hostPart_of_unbracketed (h : '[' ∉ s.head?) :
    hostPart s =
      match s.takeWhile isHostChar with
      | [] => (none, s)
      | host => (some host, s.drop host.length) :=
  hostPart.eq_2 s fun r hr => h (by simp [hr])

lemma hostPart_append (hne : host ≠ []) (hbracket : '[' ∉ host.head?)
    (hhost : ∀ c ∈ host, isHostChar c) (hrest : ∀ c ∈ rest.head?, isHostChar c = false) :
    hostPart (host ++ rest) = (some host, rest) := by
  have hhead : (host ++ rest).head? = host.head? := by
    rw [List.head?_append, Option.or_of_isSome (by simpa using hne)]
  rw [hostPart_of_unbracketed (hhead ▸ hbracket), takeWhile_append_stop hhost hrest]
  split
  · next hnil => exact absurd rfl hne
  · rw [List.drop_left]

lemma hostPart_of_rest (hrest : ∀ c ∈ rest.head?, isHostChar c = false) :
    hostPart rest = (none, rest) := by
  have hbracket : '[' ∉ rest.head? := fun h => absurd (hrest '[' h) (by decide)
  rw [hostPart_of_unbracketed hbracket, show rest.takeWhile isHostChar = [] from
    takeWhile_append_stop (s := []) (by simp) hrest]

lemma marked_append {mark : Char} {inside : Char → Bool} (hs : ∀ c ∈ s, inside c)
    (hrest : ∀ c ∈ rest.head?, inside c = false) :
    marked mark inside (mark :: (s ++ rest)) = (some s, rest) := by
  rw [marked, if_pos (beq_self_eq_true mark), takeWhile_append_stop hs hrest,
    dropWhile_append_stop hs hrest]

lemma marked_of_rest {mark : Char} {inside : Char → Bool} (h : mark ∉ s.head?) :
    marked mark inside s = (none, s) := by
  cases s with
  | nil => rfl
  | cons c s => exact if_neg (by simpa using h)

/-! ### All parts -/

namespace Parts

variable {p : Parts}

def userText (p : Parts) : List Char :=
  p.username.elim [] fun user => user ++ (p.password.elim [] (':' :: ·) ++ ['@'])

def portText (p : Parts) : List Char := p.port.elim [] (':' :: ·)

def databaseText (p : Parts) : List Char := p.database.elim [] ('/' :: ·)

def serverText (p : Parts) : List Char := p.host.getD [] ++ (p.portText ++ p.databaseText)

def text (p : Parts) : List Char := p.userText ++ p.serverText

/-- No part holds a character that ends it, and no at sign stands behind the credentials. -/
structure Plain (p : Parts) : Prop where
  username : ∀ s ∈ p.username, ∀ c ∈ s, isUserChar c
  password : ∀ s ∈ p.password, '@' ∉ s ∧ p.username.isSome
  host : ∀ s ∈ p.host, s ≠ [] ∧ '[' ∉ s.head? ∧ ∀ c ∈ s, isHostChar c ∧ c ≠ '@'
  port : ∀ s ∈ p.port, ∀ c ∈ s, c ≠ '/' ∧ c ≠ '?' ∧ c ≠ '@'
  database : ∀ s ∈ p.database, ∀ c ∈ s, c ≠ '?' ∧ c ≠ '@'
  query : p.query = none

lemma head?_databaseText (h : c ∈ p.databaseText.head?) : c = '/' := by
  rw [databaseText] at h
  cases hd : p.database with
  | none => simp [hd] at h
  | some s => simpa [hd, eq_comm] using h

lemma head?_rest (h : c ∈ (p.portText ++ p.databaseText).head?) : c = ':' ∨ c = '/' := by
  rw [portText] at h
  cases hp : p.port with
  | none =>
    rw [hp] at h
    exact .inr (head?_databaseText h)
  | some s => exact .inl (by simpa [hp, eq_comm] using h)

namespace Plain

lemma notMem_rest (h : p.Plain) : '@' ∉ p.portText ++ p.databaseText := by
  rw [List.mem_append, not_or, portText, databaseText]
  constructor
  · cases hp : p.port with
    | none => simp
    | some s => simpa using fun hm => (h.port s hp _ hm).2.2 rfl
  · cases hd : p.database with
    | none => simp
    | some s => simpa using fun hm => (h.database s hd _ hm).2 rfl

lemma isUserChar_host (h : p.Plain) : ∀ c ∈ p.host.getD [], isUserChar c := by
  cases hh : p.host with
  | none => simp
  | some s =>
    intro c hc
    have := ((h.host s hh).2.2 c hc).1
    simp only [isHostChar, Bool.and_eq_true] at this
    simp only [isUserChar, Bool.and_eq_true]
    exact ⟨this.1.2, this.1.1⟩

lemma notMem_host (h : p.Plain) : '@' ∉ p.host.getD [] := by
  cases hh : p.host with
  | none => simp
  | some s => exact fun hm => ((h.host s hh).2.2 _ hm).2 rfl

lemma credentials_text (h : p.Plain) :
    credentials p.text = (p.username, p.password, p.serverText) := by
  have hrest : ∀ c ∈ (p.portText ++ p.databaseText).head?, isUserChar c = false := fun c hc => by
    rcases head?_rest hc with rfl | rfl <;> rfl
  rw [text, userText]
  cases hu : p.username with
  | none =>
    have hp : p.password = none := by
      cases hp : p.password with
      | none => rfl
      | some s => simpa [hu] using (h.password s hp).2
    rw [Option.elim_none, List.nil_append, serverText,
      credentials_of_notMem h.isUserChar_host hrest h.notMem_rest,
      splitLast_eq_none h.notMem_host, hp]
  | some user =>
    rw [Option.elim_some]
    cases hp : p.password with
    | none =>
      have hfront : ∀ c ∈ user ++ '@' :: p.host.getD [], isUserChar c := by
        rw [List.forall_mem_append, List.forall_mem_cons]
        exact ⟨h.username user hu, rfl, h.isUserChar_host⟩
      have hsplit : user ++ (none.elim [] (':' :: ·) ++ ['@']) ++ p.serverText =
          (user ++ '@' :: p.host.getD []) ++ (p.portText ++ p.databaseText) := by
        simp [serverText]
      rw [hsplit, credentials_of_notMem hfront hrest h.notMem_rest, splitLast_append h.notMem_host]
      rfl
    | some s =>
      have hsplit : user ++ ((some s).elim [] (':' :: ·) ++ ['@']) ++ p.serverText =
          user ++ ':' :: (s ++ '@' :: p.serverText) := by
        simp
      rw [hsplit, credentials_password (h.username user hu) (h.password s hp).1]

lemma hostPart_text (h : p.Plain) :
    hostPart p.serverText = (p.host, p.portText ++ p.databaseText) := by
  have hrest : ∀ c ∈ (p.portText ++ p.databaseText).head?, isHostChar c = false := fun c hc => by
    rcases head?_rest hc with rfl | rfl <;> rfl
  rw [serverText]
  cases hh : p.host with
  | none => exact hostPart_of_rest hrest
  | some s =>
    obtain ⟨hne, hbracket, hhost⟩ := h.host s hh
    exact hostPart_append hne hbracket (fun c hc => (hhost c hc).1) hrest

lemma marked_port (h : p.Plain) :
    marked ':' (fun c => c != '/' && c != '?') (p.portText ++ p.databaseText) =
      (p.port, p.databaseText) := by
  rw [portText]
  cases hp : p.port with
  | none =>
    refine marked_of_rest fun hc => ?_
    have := head?_databaseText hc
    contradiction
  | some s =>
    refine marked_append (fun c hc => ?_) fun c hc => ?_
    · obtain ⟨hslash, hmark, -⟩ := h.port s hp c hc
      simp [hslash, hmark]
    · rw [head?_databaseText hc]
      rfl

lemma marked_database (h : p.Plain) :
    marked '/' (· != '?') p.databaseText = (p.database, []) := by
  rw [databaseText]
  cases hd : p.database with
  | none => rfl
  | some s =>
    have hs : ∀ c ∈ s, (c != '?') = true := fun c hc => bne_iff_ne.mpr (h.database s hd c hc).1
    have hmarked : marked '/' (· != '?') ('/' :: (s ++ [])) = (some s, []) :=
      marked_append hs (by simp)
    rwa [List.append_nil] at hmarked

lemma partsOf_text (h : p.Plain) : partsOf p.text = p := by
  simp only [partsOf, h.credentials_text, h.hostPart_text, h.marked_port, h.marked_database]
  rw [marked_of_rest (by simp), ← h.query]

end Plain

end Parts

/-! ### Reading -/

def ofParts (driver : String) (p : Parts) : Except UrlError DatabaseUrl :=
  (portOf p.port).map fun port =>
    { driver
      username := decoded p.username
      password := decoded p.password
      host := p.host.map String.ofList
      port
      database := decoded p.database
      query := (p.query.map queryOf).getD [] }

lemma parse_eq {url driver : String} (hdriver : ∀ c ∈ driver.toList, isDriverChar c)
    (h : url.toList = driver.toList ++ ("://".toList ++ s)) :
    parse url = if driver = "" then .error .malformed else ofParts driver (partsOf s) := by
  have hfirst : url.toList.takeWhile isDriverChar = driver.toList := by
    rw [h]
    exact takeWhile_append_stop hdriver fun c hc => by
      obtain rfl : ':' = c := Option.some.inj hc
      decide
  have hdrop : url.toList.drop driver.toList.length = "://".toList ++ s := by rw [h, List.drop_left]
  rw [parse]
  dsimp only
  rw [hfirst, hdrop, String.ofList_toList, ofParts]
  by_cases hempty : driver = ""
  · rw [if_pos hempty, if_pos (by simp [hempty])]
  · have hne : driver.toList.isEmpty = false := by
      rw [List.isEmpty_eq_false_iff]
      exact mt String.toList_eq_nil_iff.mp hempty
    rw [if_neg hempty, hne, if_neg (by simp)]
    have hrest : ("://".toList ++ s).drop 3 = s := rfl
    rw [hrest]
    cases portOf (partsOf s).port <;> rfl

/-! ### Passwords -/

/-- The password is read as the password, and the other parts are the same with any. -/
lemma partsOf_password (huser : ∀ c ∈ user, isUserChar c) (hpassword : '@' ∉ password)
    (s : List Char) :
    partsOf (user ++ ':' :: (password ++ '@' :: s)) =
      { partsOf (user ++ ':' :: '@' :: s) with password := some password } := by
  have hnone : credentials (user ++ ':' :: '@' :: s) = (some user, some [], s) :=
    credentials_password huser List.not_mem_nil s
  simp only [partsOf, credentials_password huser hpassword s, hnone]

lemma ofParts_password (driver : String) (p : Parts) (password : List Char) :
    ofParts driver { p with password := some password } =
      (ofParts driver p).map fun u => { u with password := decoded (some password) } := by
  rw [ofParts, ofParts]
  cases portOf p.port <;> rfl

/-- Of a URL with a user and a password, nothing but the password depends on the password. -/
lemma parse_password {driver user password rest : String}
    (hdriver : ∀ c ∈ driver.toList, isDriverChar c) (huser : ∀ c ∈ user.toList, isUserChar c)
    (hpassword : '@' ∉ password.toList) :
    parse (driver ++ "://" ++ user ++ ":" ++ password ++ "@" ++ rest) =
      (parse (driver ++ "://" ++ user ++ ":" ++ "@" ++ rest)).map fun u =>
        { u with password := decoded (some password.toList) } := by
  have hurl (p : String) : (driver ++ "://" ++ user ++ ":" ++ p ++ "@" ++ rest).toList =
      driver.toList ++ ("://".toList ++
        (user.toList ++ ':' :: (p.toList ++ '@' :: rest.toList))) := by
    simp
  have hempty := hurl ""
  rw [String.append_empty, String.toList_empty, List.nil_append] at hempty
  rw [parse_eq hdriver (hurl password), parse_eq hdriver hempty,
    partsOf_password huser hpassword, ofParts_password]
  split <;> rfl

/-- **Redaction.** What is shown of a URL with a user and a password, or why nothing is, does not
depend on the password. -/
theorem redactUrl_eq_of_password {driver user password password' rest : String}
    (hdriver : ∀ c ∈ driver.toList, isDriverChar c)
    (huser : ∀ c ∈ user.toList, c ≠ ':' ∧ c ≠ '/')
    (hpassword : '@' ∉ password.toList) (hpassword' : '@' ∉ password'.toList) :
    redactUrl (some (driver ++ "://" ++ user ++ ":" ++ password ++ "@" ++ rest)) =
      redactUrl (some (driver ++ "://" ++ user ++ ":" ++ password' ++ "@" ++ rest)) := by
  have huser' : ∀ c ∈ user.toList, isUserChar c := fun c hc => by
    simp [isUserChar, huser c hc]
  rw [redactUrl, redactUrl, Option.filter_some_pos (by simp), Option.filter_some_pos (by simp)]
  dsimp only
  rw [parse_password hdriver huser' hpassword, parse_password hdriver huser' hpassword']
  cases parse (driver ++ "://" ++ user ++ ":" ++ "@" ++ rest) <;> rfl

/-- A password may hold every other character that ends a part of a URL. -/
theorem redactUrl_eq_of_password_marks :
    let shown := "mysql+pymysql://root:***@[::1]:3306/shop?ssl=1"
    redactUrl (some ("mysql+pymysql" ++ "://" ++ "root" ++ ":" ++ "a:b/c?d[e]%40" ++ "@" ++
      "[::1]:3306/shop?ssl=1")) = .ok shown ∧
    redactUrl (some ("mysql+pymysql" ++ "://" ++ "root" ++ ":" ++ "" ++ "@" ++
      "[::1]:3306/shop?ssl=1")) = .ok shown := by
  intro shown
  have hempty : redactUrl (some ("mysql+pymysql" ++ "://" ++ "root" ++ ":" ++ "" ++ "@" ++
      "[::1]:3306/shop?ssl=1")) = .ok shown := by decide +kernel
  have hdriver : ∀ c ∈ "mysql+pymysql".toList, isDriverChar c :=
    List.all_eq_true.mp (by decide +kernel)
  have huser : ∀ c ∈ "root".toList, c ≠ ':' ∧ c ≠ '/' := List.all_iff_forall_prop.mp (by decide)
  exact ⟨(redactUrl_eq_of_password hdriver huser (by decide) (by decide)).trans hempty, hempty⟩

/-! ### Writing -/

def written (u : DatabaseUrl) : Parts where
  username := u.username.map fun s => PercentCoding.encode credentialSafe s.toList
  password := u.password.map fun s => PercentCoding.encode credentialSafe s.toList
  host := u.host.map String.toList
  port := u.port.map fun p => (toString p).toList
  database := u.database.map fun s => PercentCoding.encode databaseSafe s.toList
  query := none

/-- A URL that can be told from its text. -/
structure Legible (u : DatabaseUrl) : Prop where
  driver : u.driver ≠ "" ∧ ∀ c ∈ u.driver.toList, isDriverChar c
  password : u.password.isSome → u.username.isSome
  host : ∀ h ∈ u.host, h ≠ "" ∧ ∀ c ∈ h.toList, c ∉ [':', '/', '?', '@', '[', ']']
  port : ∀ p ∈ u.port, ∃ n : Nat, p = n ∧ (Nat.toDigits 10 n).length ≤ digitLimit
  query : u.query = []

lemma isUserChar_of_mem_encode (h : c ∈ PercentCoding.encode credentialSafe s) :
    isUserChar c := by
  rw [isUserChar, Bool.and_eq_true]
  exact ⟨bne_of_mem (PercentCoding.notMem_encode (by decide) (by decide) (by decide)) h,
    bne_of_mem (PercentCoding.notMem_encode (by decide) (by decide) (by decide)) h⟩

lemma toList_credentialText (d : DatabaseUrl) :
    (d.credentialText (encoded credentialSafe)).toList = d.written.userText := by
  rw [credentialText, Parts.userText, written]
  cases d.username with
  | none => rfl
  | some user => cases d.password <;> simp [encoded]

lemma decoded_encode {safe : List Char} (hsafe : ∀ c ∈ safe, c.toNat < 128 ∧ c ≠ '%')
    (o : Option String) : decoded (o.map fun s => PercentCoding.encode safe s.toList) = o := by
  cases o with
  | none => rfl
  | some s =>
    rw [Option.map_some, decoded, Option.map_some, PercentCoding.decode_encode hsafe,
      String.ofList_toList]

namespace Legible

variable {d : DatabaseUrl}

lemma toList_port (h : d.Legible) {p : Int} (hp : p ∈ d.port) :
    ∃ n : Nat, p = n ∧ (Nat.toDigits 10 n).length ≤ digitLimit ∧
      (toString p).toList = Nat.toDigits 10 n := by
  obtain ⟨n, rfl, hn⟩ := h.port p hp
  refine ⟨n, rfl, hn, ?_⟩
  rw [Int.toString_eq_repr, Int.repr_eq_if, if_pos (by omega), Int.toNat_natCast,
    Nat.repr_eq_ofList_toDigits, String.toList_ofList]

lemma plain_written (h : d.Legible) : d.written.Plain where
  username s hs c hc := by
    obtain ⟨n, -, rfl⟩ := Option.map_eq_some_iff.mp hs
    exact isUserChar_of_mem_encode hc
  password s hs := by
    obtain ⟨p, hp, rfl⟩ := Option.map_eq_some_iff.mp hs
    refine ⟨PercentCoding.notMem_encode (by decide) (by decide) (by decide), ?_⟩
    rw [written, Option.isSome_map]
    exact h.password (Option.isSome_of_mem hp)
  host s hs := by
    obtain ⟨n, hn, rfl⟩ := Option.map_eq_some_iff.mp hs
    obtain ⟨hne, hchars⟩ := h.host n hn
    refine ⟨mt String.toList_eq_nil_iff.mp hne, fun hm => ?_, fun c hc => ?_⟩
    · exact hchars '[' (List.mem_of_head? hm) (by decide)
    · have := hchars c hc
      simp only [List.mem_cons, not_or] at this
      simp [isHostChar, this]
  port s hs c hc := by
    obtain ⟨p, hp, rfl⟩ := Option.map_eq_some_iff.mp hs
    obtain ⟨n, -, -, hdigits⟩ := h.toList_port hp
    have hdigit : c.isDigit :=
      Nat.isDigit_of_mem_toDigits (by decide) (by decide) (hdigits ▸ hc)
    refine ⟨?_, ?_, ?_⟩
    all_goals
      rintro rfl
      exact absurd hdigit (by decide)
  database s hs c hc := by
    obtain ⟨n, -, rfl⟩ := Option.map_eq_some_iff.mp hs
    exact ⟨ne_of_mem_of_not_mem hc
        (PercentCoding.notMem_encode (by decide) (by decide) (by decide)),
      ne_of_mem_of_not_mem hc (PercentCoding.notMem_encode (by decide) (by decide) (by decide))⟩
  query := rfl

lemma toList_hostText (h : d.Legible) :
    (d.host.elim "" hostText).toList = d.written.host.getD [] := by
  rw [written]
  cases hh : d.host with
  | none => rfl
  | some host =>
    have hcolon : ':' ∉ host.toList := fun hm => (h.host host hh).2 ':' hm (by decide)
    simp [hostText, hcolon]

lemma toList_render (h : d.Legible) :
    d.render.toList = d.driver.toList ++ ("://".toList ++ d.written.text) := by
  have hport : (d.port.elim "" fun p => ":" ++ toString p).toList = d.written.portText := by
    rw [Parts.portText, written]
    cases d.port <;> simp
  have hdatabase : (d.database.elim "" fun s => "/" ++ encoded databaseSafe s).toList =
      d.written.databaseText := by
    rw [Parts.databaseText, written]
    cases d.database <;> simp [encoded]
  rw [render, renderWith, h.query, queryText, String.toList_append, String.toList_append,
    String.toList_append, String.toList_append, String.toList_append, String.toList_append,
    toList_credentialText, h.toList_hostText, hport, hdatabase, Parts.text, Parts.serverText]
  simp

lemma ofParts_written (h : d.Legible) : ofParts d.driver d.written = .ok d := by
  have hport : portOf d.written.port = .ok d.port := by
    rw [written]
    cases hp : d.port with
    | none => rfl
    | some p =>
      obtain ⟨n, rfl, hn, hdigits⟩ := h.toList_port hp
      rw [Option.map_some, portOf, hdigits, readInteger_toDigits hn]
  have hcredential : ∀ c ∈ credentialSafe, c.toNat < 128 ∧ c ≠ '%' :=
    List.all_iff_forall_prop.mp (by decide)
  have hdatabase : ∀ c ∈ databaseSafe, c.toNat < 128 ∧ c ≠ '%' :=
    List.all_iff_forall_prop.mp (by decide)
  have hhost : d.written.host.map String.ofList = d.host := by
    rw [written, Option.map_map]
    cases d.host <;> simp
  have hall : d = { d with query := [] } := by rw [← h.query]
  rw [ofParts, hport, hhost, written, decoded_encode hcredential, decoded_encode hcredential,
    decoded_encode hdatabase, hall]
  rfl

lemma parse_render_eq (h : d.Legible) : parse d.render = .ok d := by
  rw [parse_eq h.driver.2 h.toList_render, if_neg h.driver.1, h.plain_written.partsOf_text,
    h.ofParts_written]

end Legible

end EloquentEntity.DatabaseUrl
