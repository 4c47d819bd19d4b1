import EloquentEntity.Database.Choice
import EloquentEntity.Proofs.Database.Url
import EloquentEntity.Proofs.Files.Placed

/-!
The URL of the database that the variables of an environment file name.

A URL made of the settings of a server is read back as these settings. Such a URL is made whatever
the settings are, save where the port is written in digits that are no number.
-/

namespace EloquentEntity.Database

open Text

variable {file : OrderedMap String (Option String)} {place base : Path} {driver name key s : String}

lemma ne_empty_of_setting (h : setting file name = some s) : s ≠ "" := by
  simpa using (Option.filter_eq_some_iff.mp h).2

/-! ### Connections -/

/-- The variables name no URL but a server, by its driver. -/
structure NamesServer (file : OrderedMap String (Option String)) (driver : String) : Prop where
  url : setting file "DB_URL" = none
  databaseUrl : setting file "DATABASE_URL" = none
  lookup : drivers.lookup (connection file) = some driver
  server : driver ≠ "sqlite"

/-- The name of a connection may be in any case, between white space. -/
lemma connection_eq {before after : String}
    (h : setting file "DB_CONNECTION" = some (before ++ name ++ after))
    (hbefore : ∀ c ∈ before.toList, isBlank c) (hafter : ∀ c ∈ after.toList, isBlank c)
    (hname : name.toList.map Char.toLower = key.toList)
    (hkey : ∀ c ∈ key.toList, c.isLower) : connection file = key := by
  have hletters : ∀ c ∈ name.toList, c.isAlpha := fun c hc =>
    isAlpha_of_isLower_toLower (hkey _ (hname ▸ List.mem_map_of_mem hc))
  have hblank : ∀ c ∈ name.toList, isBlank c = false := fun c hc =>
    isBlank_eq_false_of_isAlphanum (isAlphanum_iff.mpr (.inl (hletters c hc)))
  have hascii : ∀ c ∈ name.toList, c.toNat < 128 := fun c hc => by
    have := toNat_of_isAlpha (hletters c hc)
    omega
  have htrim : trim (before ++ name ++ after).toList = name.toList := by
    rw [String.toList_append, String.toList_append, trim_eq_strip, strip_append hbefore hafter,
      strip_of_forall hblank]
  rw [connection, h, Option.getD_some, htrim, lower_eq_asciiLower hascii,
    show Syntax.asciiLower name.toList = key.toList from hname, String.ofList_toList]

lemma isLower_of_mem_drivers (h : (key, driver) ∈ drivers) : ∀ c ∈ key.toList, c.isLower := by
  have hall : ∀ e ∈ drivers, e.1.toList.all Char.isLower := by decide +kernel
  exact List.all_eq_true.mp (hall (key, driver) h)

lemma lookup_of_mem_drivers (h : (key, driver) ∈ drivers) : drivers.lookup key = some driver := by
  have hall : ∀ e ∈ drivers, drivers.lookup e.1 = some e.2 := by decide +kernel
  exact hall (key, driver) h

lemma isDriverChar_of_mem_drivers (h : (key, driver) ∈ drivers) :
    driver ≠ "" ∧ ∀ c ∈ driver.toList, DatabaseUrl.isDriverChar c := by
  have hall : ∀ e ∈ drivers, e.2 ≠ "" ∧ e.2.toList.all DatabaseUrl.isDriverChar := by
    decide +kernel
  exact (hall (key, driver) h).imp_right List.all_eq_true.mp

/-! ### Servers -/

def serverAt (driver : String) (file : OrderedMap String (Option String)) (port : Option Int) :
    DatabaseUrl where
  driver
  username := setting file "DB_USERNAME"
  password := setting file "DB_PASSWORD"
  host := setting file "DB_HOST"
  port
  database := setting file "DB_DATABASE"
  query := []

lemma serverUrl_eq (driver : String) (file : OrderedMap String (Option String)) :
    serverUrl driver file =
      (portOf (setting file "DB_PORT")).map fun port => (serverAt driver file port).render := by
  rw [serverUrl]
  cases portOf (setting file "DB_PORT") <;> rfl

lemma NamesServer.urlOfVariables_eq (h : NamesServer file driver) (place base : Path) :
    urlOfVariables place base file =
      ((portOf (setting file "DB_PORT")).map fun port => some (serverAt driver file port).render,
        []) := by
  rw [urlOfVariables, h.url, h.databaseUrl]
  dsimp only [Option.or_none]
  rw [h.lookup]
  dsimp only
  rw [if_neg h.server, serverUrl_eq]
  cases portOf (setting file "DB_PORT") <;> rfl

/-! ### Ports -/

lemma portOf_of_ascii (h : ∀ c ∈ s.toList, c.isDigit) (hne : s ≠ "")
    (hlength : s.length ≤ digitLimit) :
    portOf (some s) = .ok (some (Nat.ofDigitChars 10 s.toList 0 : Int)) := by
  have hall : s.toList.all isDigit := List.all_eq_true.mpr fun c hc =>
    isDigit_of_decimal (by rw [decimalValue_of_isDigit (h c hc), Option.isSome_some])
  rw [portOf, if_pos hall, readInteger_of_ascii h (mt String.toList_eq_nil_iff.mp hne)
    (by rwa [String.length_toList])]

/-! ### Settings that are read back -/

/-- The server of settings is legible, if its host is. -/
lemma legible_serverAt {port : Option Int} (hdriver : (key, driver) ∈ drivers)
    (huser : (setting file "DB_USERNAME").isSome)
    (hhost : ∀ h ∈ setting file "DB_HOST", ∀ c ∈ h.toList, c ∉ [':', '/', '?', '@', '[', ']'])
    (hport : ∀ p ∈ port, ∃ n : Nat, p = n ∧ (Nat.toDigits 10 n).length ≤ digitLimit) :
    (serverAt driver file port).Legible where
  driver := isDriverChar_of_mem_drivers hdriver
  password _ := huser
  host h hh := ⟨ne_empty_of_setting hh, hhost h hh⟩
  port := hport
  query := rfl

/-- **Settings are read back.** The URL that is made of the settings of a database server, with the
name of its connection in any case between white space, is read back as these settings, whatever
characters user, password and name of the database are made of. -/
theorem parse_urlOfVariables {place base : Path} {file : OrderedMap String (Option String)}
    {before name after key driver user password host database : String} {port : Option String}
    (hurl : setting file "DB_URL" = none) (hurl' : setting file "DATABASE_URL" = none)
    (hconnection : setting file "DB_CONNECTION" = some (before ++ name ++ after))
    (hbefore : ∀ c ∈ before.toList, isBlank c) (hafter : ∀ c ∈ after.toList, isBlank c)
    (hname : name.toList.map Char.toLower = key.toList) (hdriver : (key, driver) ∈ drivers)
    (hserver : driver ≠ "sqlite")
    (huser : setting file "DB_USERNAME" = some user)
    (hpassword : setting file "DB_PASSWORD" = some password)
    (hhost : setting file "DB_HOST" = some host)
    (hhostChars : ∀ c ∈ host.toList, c ∉ [':', '/', '?', '@', '[', ']'])
    (hport : setting file "DB_PORT" = port)
    (hdigits : ∀ s ∈ port, (∀ c ∈ s.toList, c.isDigit) ∧ s.length ≤ digitLimit)
    (hdatabase : setting file "DB_DATABASE" = some database) :
    ∃ url, (urlOfVariables place base file).1 = .ok (some url) ∧
      DatabaseUrl.parse url = .ok
        { driver
          username := some user
          password := some password
          host := some host
          port := port.map fun s => (Nat.ofDigitChars 10 s.toList 0 : Int)
          database := some database
          query := [] } := by
  -- The variables name a server, whose port is read as a number.
  have hnames : NamesServer file driver := by
    refine ⟨hurl, hurl', ?_, hserver⟩
    rw [connection_eq hconnection hbefore hafter hname (isLower_of_mem_drivers hdriver)]
    exact lookup_of_mem_drivers hdriver
  have hread : portOf port =
      .ok (port.map fun s => (Nat.ofDigitChars 10 s.toList 0 : Int)) := by
    cases port with
    | none => rfl
    | some s =>
      obtain ⟨hs, hlength⟩ := hdigits s rfl
      exact portOf_of_ascii hs (ne_empty_of_setting hport) hlength
  generalize hnumber : port.map (fun s => (Nat.ofDigitChars 10 s.toList 0 : Int)) = number
    at hread ⊢
  -- Its URL can be told from the text that is made of it.
  have hlegible : (serverAt driver file number).Legible := by
    refine legible_serverAt hdriver (by rw [huser]; rfl) ?_ ?_
    · rintro h hh
      obtain rfl := Option.some.inj (hhost.symm.trans hh)
      exact hhostChars
    · rintro p hp
      rw [← hnumber] at hp
      obtain ⟨s, hs, rfl⟩ := Option.map_eq_some_iff.mp hp
      obtain ⟨hall, hlength⟩ := hdigits s hs
      have hne : s.toList ≠ [] :=
        mt String.toList_eq_nil_iff.mp (ne_empty_of_setting (hport.trans hs))
      exact ⟨_, rfl, (length_toDigits_ofDigitChars hall hne).trans hlength⟩
  refine ⟨(serverAt driver file number).render, ?_, ?_⟩
  · rw [hnames.urlOfVariables_eq, hport, hread]
    rfl
  · rw [hlegible.parse_render_eq, serverAt, huser, hpassword, hhost, hdatabase]

/-- Marks and letters of any script in the credentials, and a port with a zero in front. -/
theorem parse_urlOfVariables_marks :
    let file : OrderedMap String (Option String) := .ofList
      [("DB_CONNECTION", some "\u00a0MySQL\t"), ("DB_USERNAME", some "a:b/c@d"),
        ("DB_PASSWORD", some "%41+é 😀@:/?"), ("DB_HOST", some "db"), ("DB_PORT", some "03306"),
        ("DB_DATABASE", some "shop?x")]
    setting file "DB_CONNECTION" = some ("\u00a0" ++ "MySQL" ++ "\t") ∧
      ∃ url, (urlOfVariables (.ofString ".env") (.ofString ".") file).1 = .ok (some url) ∧
        DatabaseUrl.parse url = .ok
          { driver := "mysql+pymysql", username := some "a:b/c@d", password := some "%41+é 😀@:/?"
            host := some "db", port := some 3306, database := some "shop?x", query := [] } := by
  intro file
  have hconnection : setting file "DB_CONNECTION" = some ("\u00a0" ++ "MySQL" ++ "\t") := by
    decide +kernel
  have hdriver : ("mysql", "mysql+pymysql") ∈ drivers := by decide +kernel
  have huser : setting file "DB_USERNAME" = some "a:b/c@d" := by decide +kernel
  have hpassword : setting file "DB_PASSWORD" = some "%41+é 😀@:/?" := by decide +kernel
  have hhost : setting file "DB_HOST" = some "db" := by decide +kernel
  have hport : setting file "DB_PORT" = some "03306" := by decide +kernel
  have hdigits : ∀ s ∈ some "03306", (∀ c ∈ s.toList, c.isDigit) ∧ s.length ≤ digitLimit := by
    intro s hs
    obtain rfl := Option.some.inj hs
    exact ⟨List.all_eq_true.mp (by decide), by decide⟩
  have hdatabase : setting file "DB_DATABASE" = some "shop?x" := by decide +kernel
  exact ⟨hconnection, parse_urlOfVariables (by decide +kernel) (by decide +kernel) hconnection
    (List.all_eq_true.mp (by decide)) (List.all_eq_true.mp (by decide)) (by decide) hdriver
    (by decide) huser hpassword hhost (List.all_iff_forall_prop.mp (by decide)) hport hdigits
    hdatabase⟩

/-! ### Ports that are no number -/

/-- A port of digits alone that is no number: some digit stands for no decimal place, or there are
more digits than are read. -/
def IsStray (port : String) : Prop :=
  (∀ c ∈ port.toList, isDigit c) ∧
    ¬((∀ c ∈ port.toList, (decimalValue c).isSome) ∧ port.length ≤ digitLimit)

lemma isStray_iff (hne : s ≠ "") :
    IsStray s ↔ (∀ c ∈ s.toList, isDigit c) ∧ ∀ n, readInteger s.toList ≠ .ok n := by
  refine and_congr_right fun hdigits => ?_
  have hread := readInteger_of_isDigit hdigits (mt String.toList_eq_nil_iff.mp hne)
  rw [String.length_toList] at hread
  rw [← hread, not_exists]

/-- Only a port of digits alone that is no number is not passed over. -/
lemma portOf_isOk_iff (hne : s ≠ "") : (∃ port, portOf (some s) = .ok port) ↔ ¬IsStray s := by
  rw [portOf, isStray_iff hne]
  split
  · next hall =>
    have hdigits : ∀ c ∈ s.toList, isDigit c := List.all_eq_true.mp hall
    cases readInteger s.toList with
    | error e => simpa using hdigits
    | ok n => simp
  · next hall => exact iff_of_true ⟨none, rfl⟩ fun h => hall (List.all_eq_true.mpr h.1)

lemma portOf_eq_none (hne : s ≠ "") (hnumber : ∀ n, readInteger s.toList ≠ .ok n)
    (hstray : ¬IsStray s) : portOf (some s) = .ok none := by
  rw [portOf]
  split
  · next hall => exact absurd ((isStray_iff hne).mpr ⟨List.all_eq_true.mp hall, hnumber⟩) hstray
  · rfl

lemma urlOfVariables_of_not_namesServer (place base : Path)
    (h : ∀ driver, ¬NamesServer file driver) :
    ∃ url, (urlOfVariables place base file).1 = .ok url := by
  rw [urlOfVariables]
  cases hurl : (setting file "DB_URL").or (setting file "DATABASE_URL") with
  | some url => exact ⟨_, rfl⟩
  | none =>
    obtain ⟨hurl, hurl'⟩ := Option.or_eq_none_iff.mp hurl
    dsimp only
    cases hdriver : drivers.lookup (connection file) with
    | none => exact ⟨_, rfl⟩
    | some driver =>
      dsimp only
      split
      · exact ⟨_, rfl⟩
      · next hserver => exact absurd ⟨hurl, hurl', hdriver, hserver⟩ (h driver)

/-- There is an answer to any variables, save for a server with a port of digits alone that is no
number. -/
lemma urlOfVariables_isOk_iff (place base : Path) (file : OrderedMap String (Option String)) :
    (∃ url, (urlOfVariables place base file).1 = .ok url) ↔
      ¬∃ driver port, NamesServer file driver ∧ setting file "DB_PORT" = some port ∧
        IsStray port := by
  by_cases hnames : ∃ driver, NamesServer file driver
  · obtain ⟨driver, hnames⟩ := hnames
    rw [hnames.urlOfVariables_eq]
    cases hport : setting file "DB_PORT" with
    | none => exact iff_of_true ⟨_, rfl⟩ (by simp)
    | some port =>
      have hread := portOf_isOk_iff (ne_empty_of_setting hport)
      have hmap : (∃ url, (portOf (some port)).map (fun p =>
          some (serverAt driver file p).render) = .ok url) ↔ ∃ p, portOf (some port) = .ok p := by
        cases portOf (some port) <;> simp [Except.map]
      rw [hmap, hread, not_iff_not]
      constructor
      · exact fun hstray => ⟨driver, port, hnames, rfl, hstray⟩
      · rintro ⟨-, port', -, hport', hstray⟩
        exact Option.some.inj hport' ▸ hstray
  · rw [not_exists] at hnames
    exact iff_of_true (urlOfVariables_of_not_namesServer place base hnames)
      fun ⟨driver, _, h, _⟩ => hnames driver h

lemma urlOfFile_eq {files : FileTree} {text : String} (hread : files.read place = .ok text)
    (process : Environment) (project : Option Path) :
    urlOfFile files process place project =
      urlOfVariables place (project.getD place.parent) (EnvFile.variablesOf process text) := by
  have hfile : files.isFile place = .ok true := by
    rw [FileTree.read] at hread
    split at hread
    · cases hread
    · next hbytes => exact FileTree.isFile_of_bytes hbytes
  rw [urlOfFile, hfile, hread]

/-- **Reading settings.** An environment file that can be read has an answer, which is a URL or
none, save where it names a server with a port of digits alone that is no number: a digit stands for
no decimal place, or there are more digits than are read. Every other port that is no number is
passed over, and the URL made without one. -/
theorem urlOfFile_isOk_iff {files : FileTree} {process : Environment} {place : Path}
    {project : Option Path} {text : String} {file : OrderedMap String (Option String)}
    (hread : files.read place = .ok text) (hfile : EnvFile.variablesOf process text = file) :
    ((∃ url, (urlOfFile files process place project).1 = .ok url) ↔
      ¬∃ driver port, NamesServer file driver ∧ setting file "DB_PORT" = some port ∧
        IsStray port) ∧
    ∀ driver port, NamesServer file driver → setting file "DB_PORT" = some port →
      (∀ n, readInteger port.toList ≠ .ok n) → ¬IsStray port →
      (urlOfFile files process place project).1 =
        .ok (some (serverAt driver file none).render) := by
  rw [urlOfFile_eq hread, hfile]
  refine ⟨urlOfVariables_isOk_iff _ _ _, fun driver port hnames hport hnumber hstray => ?_⟩
  rw [hnames.urlOfVariables_eq, hport,
    portOf_eq_none (ne_empty_of_setting hport) hnumber hstray]
  rfl

def settingsFiles (text : String) : FileTree where
  nodes := .ofList [(["p"], .directory), (["p", ".env"], .file (Utf8.encode text.toList))]
  current := ["p"]

/-- A port with a letter in it is passed over. -/
theorem urlOfFile_isOk_iff_letter :
    let text := "DB_CONNECTION=pgsql\nDB_HOST=db\nDB_PORT=54x2\n"
    (settingsFiles text).read (.ofString ".env") = .ok text ∧
      (urlOfFile (settingsFiles text) [] (.ofString ".env") none).1 =
        .ok (some "postgresql+psycopg://db") := by
  intro text
  have hread : (settingsFiles text).read (.ofString ".env") = .ok text := by decide +kernel
  have hnames : NamesServer (EnvFile.variablesOf [] text) "postgresql+psycopg" :=
    ⟨by decide +kernel, by decide +kernel, by decide +kernel, by decide⟩
  have hnumber : ∀ n, readInteger "54x2".toList ≠ .ok n := by
    rw [show readInteger "54x2".toList = .error .malformed by decide +kernel]
    simp
  have hstray : ¬IsStray "54x2" := fun h => absurd (h.1 'x' (by decide)) (by decide +kernel)
  have hport : setting (EnvFile.variablesOf [] text) "DB_PORT" = some "54x2" := by decide +kernel
  exact ⟨hread, ((urlOfFile_isOk_iff hread rfl).2 _ _ hnames hport hnumber hstray).trans
    (by decide +kernel)⟩

/-- A superscript as the port leaves the settings without an answer. -/
theorem urlOfFile_of_superscript :
    let text := "DB_CONNECTION=mysql\nDB_HOST=h\nDB_PORT=²\n"
    (settingsFiles text).read (.ofString ".env") = .ok text ∧
      (urlOfFile (settingsFiles text) [] (.ofString ".env") none).1 =
        .error (.badPort ⟨['²'], .malformed⟩) := by
  decide +kernel

end EloquentEntity.Database
