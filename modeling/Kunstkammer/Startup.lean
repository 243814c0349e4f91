import Kunstkammer.Cards.Changes
import Kunstkammer.Listing.Filters

/-!
# The start of the program

`main` reads the configuration, takes the base URL apart, and runs one of the modes.

* `splitBaseUrl`: host and path of the base URL; `splitBaseUrl_spec`, `splitBaseUrl_append`: they
  are its parts, and every URL is taken apart where its host ends;
* `start`: the configuration and the endpoint, as far as the program gets;
* `config_isSome_iff`, `start_isSome_iff`: which files it starts from;
* `Mode`, `Mode.run`: the modes that work on cards, with the options they are given;
* `changes_follow_creations`: they change no card but those they have created;
* `requests_under_base_url`: every request of these modes goes below the base URL.
-/

namespace Kaiten.Main

/-! ### The base URL -/

/-- `base_url` without `https://` at its front. -/
def stripScheme (baseUrl : Str) : Str :=
  if (lit "https://").isPrefixOf baseUrl then baseUrl.drop 8 else baseUrl

/-- `host` and `api_path`: the base URL is cut before its first slash. -/
def splitBaseUrl (baseUrl : Str) : Str × Str :=
  ((stripScheme baseUrl).takeWhile (· ≠ 47), (stripScheme baseUrl).dropWhile (· ≠ 47))

/-- The parts of a base URL. -/
structure IsSplit (baseUrl host apiPath : Str) : Prop where
  whole : baseUrl = host ++ apiPath ∨ baseUrl = lit "https://" ++ host ++ apiPath
  host : 47 ∉ host
  path : apiPath = [] ∨ ∃ rest, apiPath = 47 :: rest

theorem stripScheme_cases (baseUrl : Str) :
    baseUrl = stripScheme baseUrl ∨ baseUrl = lit "https://" ++ stripScheme baseUrl := by
  unfold stripScheme
  split_ifs with h
  · obtain ⟨rest, rfl⟩ := List.isPrefixOf_iff_prefix.1 h
    have hlength : (lit "https://").length = 8 := by decide +kernel
    rw [← hlength, List.drop_left]
    exact Or.inr rfl
  · exact Or.inl rfl

theorem splitBaseUrl_parts (baseUrl : Str) :
    (splitBaseUrl baseUrl).1 ++ (splitBaseUrl baseUrl).2 = stripScheme baseUrl :=
  List.takeWhile_append_dropWhile

theorem splitBaseUrl_spec (baseUrl : Str) :
    IsSplit baseUrl (splitBaseUrl baseUrl).1 (splitBaseUrl baseUrl).2 where
  whole := by
    rw [List.append_assoc, splitBaseUrl_parts]
    exact stripScheme_cases baseUrl
  host h := by
    have hne := List.mem_takeWhile_imp h
    simp at hne
  path := by
    cases hpath : (splitBaseUrl baseUrl).2 with
    | nil => exact Or.inl rfl
    | cons b rest =>
      have hhead := List.head?_dropWhile_not (· ≠ 47) (stripScheme baseUrl)
      have hdrop : (stripScheme baseUrl).dropWhile (· ≠ 47) = b :: rest := hpath
      rw [hdrop] at hhead
      refine Or.inr ⟨rest, ?_⟩
      simp at hhead
      rw [hhead]

/-- A URL is taken apart into the host and the path it is put together from. -/
theorem splitBaseUrl_append {host apiPath : Str} (hhost : 47 ∉ host)
    (hpath : apiPath = [] ∨ ∃ rest, apiPath = 47 :: rest) :
    splitBaseUrl (lit "https://" ++ host ++ apiPath) = (host, apiPath) := by
  have hstrip : stripScheme (lit "https://" ++ host ++ apiPath) = host ++ apiPath := by
    have hscheme : (lit "https://").isPrefixOf (lit "https://" ++ host ++ apiPath) = true := by
      rw [List.isPrefixOf_iff_prefix, List.append_assoc]
      exact List.prefix_append _ _
    have hlength : (lit "https://").length = 8 := by decide +kernel
    rw [stripScheme, if_pos hscheme, ← hlength, List.append_assoc, List.drop_left]
  have hall : ∀ b ∈ host, decide (b ≠ 47) = true := fun b hb => by
    rw [decide_eq_true_iff]
    rintro rfl
    exact hhost hb
  rw [splitBaseUrl, hstrip, List.takeWhile_append_of_pos hall, List.dropWhile_append_of_pos hall]
  rcases hpath with rfl | ⟨rest, rfl⟩
  · simp
  · simp

/-! ### The configuration -/

/-- The members of a configuration that are texts. -/
def textKeys : List Str :=
  [lit "Token", lit "BaseURL", lit "Port", lit "LogLevel", lit "Role"]

/-- The members of a configuration that are numbers. -/
def numberKeys : List Str :=
  [lit "BoardID", lit "ColumnID", lit "LaneID", lit "SpaceID", lit "TaskTypeId", lit "TaskSize"]

/-- Every member of a configuration is there, and of its kind. -/
structure IsConfig (j : Json) : Prop where
  texts : ∀ key ∈ textKeys, ((j.member? key).bind Json.getString).isSome
  numbers : ∀ key ∈ numberKeys, ((j.member? key).bind Json.getInt64).isSome
  tags : (((j.member? (lit "Tags")).bind Json.elements?).bind
    fun l => l.mapM Json.getString).isSome

section Members

variable {α β γ δ : Type} {p : Prop}

/-- A second step that succeeds or not whatever the first one gives. -/
theorem isSome_bind_iff {o : Option α} {f : α → Option β} (h : ∀ a, (f a).isSome ↔ p) :
    (o.bind f).isSome ↔ o.isSome ∧ p := by
  cases o with
  | none => simp
  | some a => simp [h a]

theorem isSome_bind₂_iff {o : Option α} {read : α → Option β} {f : β → Option γ}
    (h : ∀ b, (f b).isSome ↔ p) :
    (o.bind fun a => (read a).bind f).isSome ↔ (o.bind read).isSome ∧ p := by
  rw [← Option.bind_assoc]
  exact isSome_bind_iff h

theorem isSome_bind₃_iff {o : Option α} {elements : α → Option β} {read : β → Option γ}
    {f : γ → Option δ} (h : ∀ c, (f c).isSome ↔ p) :
    (o.bind fun a => (elements a).bind fun b => (read b).bind f).isSome ↔
      ((o.bind elements).bind read).isSome ∧ p := by
  rw [← Option.bind_assoc, ← Option.bind_assoc]
  exact isSome_bind_iff h

end Members

/-- `from_json` of a configuration needs every member, and nothing else. -/
theorem config_isSome_iff (j : Json) : (Config.fromJson j).isSome ↔ IsConfig j := by
  -- one step for each member, in the order of the source
  refine (isSome_bind₂_iff fun _ => isSome_bind₂_iff fun _ => isSome_bind₂_iff fun _ =>
    isSome_bind₂_iff fun _ => isSome_bind₂_iff fun _ => isSome_bind₂_iff fun _ =>
    isSome_bind₂_iff fun _ => isSome_bind₂_iff fun _ => isSome_bind₃_iff fun _ =>
    isSome_bind₂_iff fun _ => isSome_bind₂_iff fun _ => isSome_bind₂_iff fun _ =>
    iff_of_true rfl trivial).trans ?_
  constructor
  · rintro ⟨htoken, hurl, hport, hlevel, hboard, hcolumn, hlane, hspace, htags, htype, hsize, hrole,
      -⟩
    refine ⟨?_, ?_, htags⟩
    · simp only [textKeys, List.forall_mem_cons]
      exact ⟨htoken, hurl, hport, hlevel, hrole, by simp⟩
    · simp only [numberKeys, List.forall_mem_cons]
      exact ⟨hboard, hcolumn, hlane, hspace, htype, hsize, by simp⟩
  · rintro ⟨htexts, hnumbers, htags⟩
    simp only [textKeys, numberKeys, List.forall_mem_cons] at htexts hnumbers
    obtain ⟨htoken, hurl, hport, hlevel, hrole, -⟩ := htexts
    obtain ⟨hboard, hcolumn, hlane, hspace, htype, hsize, -⟩ := hnumbers
    exact ⟨htoken, hurl, hport, hlevel, hboard, hcolumn, hlane, hspace, htags, htype, hsize, hrole,
      trivial⟩

section Start

variable {Text : Type} (json : NlohmannText Text)

/-- The configuration, the host and the path of the API, from the name of the file and, if it can be
opened, its content; `none` where `main` returns or throws before. -/
def start (configFile : Str) (content : Option Text) : Option (Config × Str × Str) :=
  if configFile = [] then none
  else
    ((content.bind json.parse).bind Config.fromJson).map fun config =>
      (config, splitBaseUrl config.baseUrl)

/-- `main` gets to its modes exactly from a file with a whole configuration. -/
theorem start_isSome_iff (configFile : Str) (content : Option Text) :
    (start json configFile content).isSome ↔
      configFile ≠ [] ∧ ∃ j, content.bind json.parse = some j ∧ IsConfig j := by
  unfold start
  split_ifs with hname
  · simp [hname]
  · rw [Option.isSome_map, and_iff_right hname]
    cases content.bind json.parse with
    | none => simp
    | some j => simp [config_isSome_iff]

theorem start_eq_some {configFile host apiPath : Str} {content : Option Text} {config : Config}
    (h : start json configFile content = some (config, host, apiPath)) :
    splitBaseUrl config.baseUrl = (host, apiPath) := by
  unfold start at h
  split_ifs at h
  obtain ⟨config', -, hsome⟩ := Option.map_eq_some_iff.1 h
  obtain ⟨rfl, hsplit⟩ := Prod.mk.inj hsome
  exact hsplit

end Start

/-! ### The modes -/

section Modes

variable {σ Text : Type} (json : NlohmannText Text) (server : Server σ Text) (apiPath : Str)

/-- `handle_get_card`: its exit code. -/
def handleGetCard (cardNumber : Str) : Run σ Text ℤ := do
  let (status, _) ← getCard json server apiPath cardNumber
  return (if status = 200 then 0 else 1)

/-- The modes that work on cards, with their options. -/
inductive Mode (Text : Type)
  | createCard (title : Str) (size parent : Int32) (tagsCsv : Str)
  | getCard (cardNumber : Str)
  | backlog (file : Option Text)

/-- The tags of `--tags`. -/
def splitTags (tagsCsv : Str) : List Str :=
  if tagsCsv = [] then [] else (getlines 44 tagsCsv).filter (· ≠ [])

/-- What `main` calls. -/
def Mode.run (config : Config) : Mode Text → Run σ Text ℤ
  | .createCard title size parent tagsCsv =>
      handleCreateCard json server apiPath config title size parent.toInt64 (splitTags tagsCsv)
  | .getCard cardNumber => handleGetCard json server apiPath cardNumber
  | .backlog file => handleBacklog json server apiPath config file

variable {json server apiPath}

theorem follows_run (config : Config) (mode : Mode Text) (w : World σ Text) :
    ExpectedAt json apiPath (mode.run json server apiPath config) w := by
  cases mode with
  | createCard title size parent tagsCsv => exact follows_handleCreateCard config title size _ _ w
  | getCard cardNumber =>
    have hget : ExpectedAt json apiPath (Kaiten.getCard json server apiPath cardNumber) w :=
      .of_emits (P := fun e => ∀ history, Expected json apiPath history e)
        (emits_getCard fun response _ => .card cardNumber response)
        fun history _ _ he => he history
    exact hget.bind fun found t _ => .pure _
  | backlog file => exact follows_handleBacklog config file w

/-- The exchanges of a run from the start of the program. -/
def Mode.log (json : NlohmannText Text) (server : Server σ Text) (apiPath : Str) (config : Config)
    (mode : Mode Text) (state : σ) (readings : ℕ → Reading) : List (Exchange Text) :=
  (Effects.state (mode.run json server apiPath config (World.initial state readings))).log

theorem expected_of_log (json : NlohmannText Text) (server : Server σ Text) (apiPath : Str)
    (config : Config) (mode : Mode Text) (state : σ) (readings : ℕ → Reading)
    (before after : List (Exchange Text)) (e : Exchange Text)
    (h : mode.log json server apiPath config state readings = before ++ e :: after) :
    Expected json apiPath before e := by
  obtain ⟨es, hes, hfollows⟩ : ExpectedAt json apiPath _ (World.initial state readings) :=
    follows_run config mode (World.initial state readings)
  have hempty : (World.initial state readings : World σ Text).log = [] := rfl
  rw [hempty, List.nil_append] at hes
  rw [hempty] at hfollows
  exact hfollows before e after (hes.symm.trans h)

/-- **A run only changes cards it has created**: whatever the server answers, a request asks for
something, or creates a card, or links, tags or renames a card whose creation was sent before in
this run, and was answered with success. -/
theorem changes_follow_creations (json : NlohmannText Text) (server : Server σ Text)
    (apiPath : Str) (config : Config) (mode : Mode Text) (state : σ) (readings : ℕ → Reading)
    (before after : List (Exchange Text)) (request : Request Text) (response : ℤ × Text)
    (h : mode.log json server apiPath config state readings =
      before ++ .request request response :: after) :
    (∃ target, request = .get target) ∨
      (∃ body, request = .post (apiPath ++ lit "/cards") body) ∨
      ∃ id, Answered json apiPath before id ∧ FollowUp json apiPath id request := by
  cases expected_of_log json server apiPath config mode state readings before after _ h with
  | card idOrNumber => exact Or.inl ⟨_, rfl⟩
  | currentUser => exact Or.inl ⟨_, rfl⟩
  | create body => exact Or.inr (Or.inl ⟨body, rfl⟩)
  | change hid hfollow => exact Or.inr (Or.inr ⟨_, hid, hfollow⟩)

/-- A server that answers everything with the card 5. -/
def fifthServer : Server Unit (Option { j : Json // j.validUtf8 = true }) where
  answer _ _ := ((200, some ⟨.object [(lit "id", .integer 5)], by decide +kernel⟩), ())
  users _ := (fun _ => (200, none), ())

/-- A card below the card 7: it is linked with the fourth request. -/
theorem changes_follow_creations_link : ∃ before request response after,
    Mode.log .symbolic fifthServer [] emptyConfig (.createCard (lit "task") 0 7 []) ()
      quietWorld.readings = before ++ .request request response :: after ∧ before.length = 3 ∧
    ((∃ target, request = .get target) ∨ (∃ body, request = .post (lit "/cards") body) ∨
      ∃ id, Answered .symbolic [] before id ∧ FollowUp .symbolic [] id request) := by
  obtain ⟨before, request, response, after, hlog, hlength⟩ : ∃ before request response after,
    Mode.log .symbolic fifthServer [] emptyConfig (.createCard (lit "task") 0 7 []) ()
      quietWorld.readings = before ++ .request request response :: after ∧ before.length = 3 :=
    ⟨[_, _, _], _, _, _, rfl, rfl⟩
  exact ⟨before, request, response, after, hlog, hlength,
    changes_follow_creations _ _ _ _ _ _ _ _ _ _ _ hlog⟩

/-- **All requests go below the base URL** of the configuration: its host is asked, over https, for
paths that begin with the path of the API and a slash, also for the pages of a listing of users. -/
theorem requests_under_base_url (json : NlohmannText Text) (server : Server σ Text)
    {configFile host apiPath : Str} {content : Option Text} {config : Config}
    (h : start json configFile content = some (config, host, apiPath)) (mode : Mode Text)
    (state : σ) (readings : ℕ → Reading) {e : Exchange Text}
    (hmem : e ∈ mode.log json server apiPath config state readings) {target : Str}
    (htarget : target ∈ e.targets apiPath) :
    IsSplit config.baseUrl host apiPath ∧
      lit "https://" ++ stripScheme config.baseUrl ++ lit "/" <+:
        lit "https://" ++ host ++ target := by
  have hsplit := start_eq_some json h
  obtain ⟨before, after, hlog⟩ := List.append_of_mem hmem
  have hexpected :=
    expected_of_log json server apiPath config mode state readings before after e hlog
  have hparts : stripScheme config.baseUrl = host ++ apiPath := by
    rw [← splitBaseUrl_parts, hsplit]
  constructor
  · have hspec := splitBaseUrl_spec config.baseUrl
    rwa [hsplit] at hspec
  · rw [hparts]
    obtain ⟨rest, hrest⟩ := hexpected.targets target htarget
    exact ⟨rest, by rw [← hrest]; simp only [List.append_assoc]⟩

/-- A configuration of the server `h.ru`. -/
def homeFile : Json :=
  .object [(lit "BaseURL", .string (lit "https://h.ru/api")), (lit "BoardID", .integer 0),
    (lit "ColumnID", .integer 0), (lit "LaneID", .integer 0), (lit "LogLevel", .string []),
    (lit "Port", .string []), (lit "Role", .string []), (lit "SpaceID", .integer 0),
    (lit "Tags", .array []), (lit "TaskSize", .integer 0), (lit "TaskTypeId", .integer 0),
    (lit "Token", .string [])]

/-- One task for the user with the address `a@b`. -/
def requestedFile : Json :=
  .object [(lit "backlog", .array [.object [(lit "responsible", .string (lit "a@b")),
    (lit "tasks", .array [.object [(lit "title", .string (lit "task"))]])]])]

/-- The users are asked for before the task is created. -/
theorem requests_under_base_url_users : ∃ config host apiPath,
    start .symbolic (lit "config.json") (some (some ⟨homeFile, by decide +kernel⟩)) =
      some (config, host, apiPath) ∧ host = lit "h.ru" ∧
    ∃ e ∈ Mode.log .symbolic fifthServer apiPath config
      (.backlog (some (some ⟨requestedFile, by decide +kernel⟩))) () quietWorld.readings,
    ∃ target ∈ e.targets apiPath, target = apiPath ++ lit "/users?limit=100" ∧
      IsSplit config.baseUrl host apiPath ∧
      lit "https://" ++ stripScheme config.baseUrl ++ lit "/" <+:
        lit "https://" ++ host ++ target := by
  obtain ⟨config, host, apiPath, hstart, hhost, user, rest, hlog⟩ : ∃ config host apiPath,
    start .symbolic (lit "config.json") (some (some ⟨homeFile, by decide +kernel⟩)) =
      some (config, host, apiPath) ∧ host = lit "h.ru" ∧
    ∃ user rest, Mode.log .symbolic fifthServer apiPath config
      (.backlog (some (some ⟨requestedFile, by decide +kernel⟩))) () quietWorld.readings =
        user :: .users [UserOperations.pageQuery 100 {} 0] :: rest :=
    ⟨_, _, _, rfl, by decide +kernel, _, _, rfl⟩
  have hmem : .users [UserOperations.pageQuery 100 {} 0] ∈ Mode.log .symbolic fifthServer apiPath
      config (.backlog (some (some ⟨requestedFile, by decide +kernel⟩))) ()
      quietWorld.readings := by
    rw [hlog]
    exact List.mem_cons_of_mem _ List.mem_cons_self
  have htarget : usersTarget apiPath (UserOperations.pageQuery 100 {} 0) =
      apiPath ++ lit "/users?limit=100" := by
    rw [usersTarget, List.append_assoc]
    rfl
  exact ⟨config, host, apiPath, hstart, hhost, _, hmem, _, List.mem_singleton.2 rfl, htarget,
    requests_under_base_url .symbolic fifthServer hstart _ _ _ hmem (List.mem_singleton.2 rfl)⟩

end Modes

end Kaiten.Main
