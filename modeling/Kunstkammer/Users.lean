import Kunstkammer.Cards.Operations
import Kunstkammer.Foundation.Memo

/-!
# `get_user` with and without its cache

`get_user` of `user_operations.cpp`.  A request names a space and a user; the cache knows users
only.

* `UserWorld`, `getUser`, `getUsers`: the call, and a history of calls;
* `ServesUsers reply`: the server has a fixed reply for every space and user;
* `UsersTransparent`: the history is answered the same with the cache and with the cache disabled;
* `Remembers`: within the lifetime of its entries the cache is a memory of the calls so far;
* `usersTransparent_iff`: the histories for which the cache makes no difference.
-/

namespace Kaiten

/-- The lifetime of the entries of `user_cache`: ten minutes. -/
def userTtl : ℤ := 600

/-- The server, the cache of users, and the readings of the clock to come. -/
structure UserWorld (σ Text : Type) where
  server : σ
  users : Cache Int64 User
  readings : ℕ → Moment Int64
  reads : ℕ

/-- A world at the start of the program. -/
def UserWorld.initial {σ : Type} (Text : Type) (server : σ) (readings : ℕ → Moment Int64) :
    UserWorld σ Text where
  server := server
  users := { defaultTtl := userTtl }
  readings := readings
  reads := 0

/-- `user_cache().set_enabled(false)`. -/
def UserWorld.disabled {σ Text : Type} (w : UserWorld σ Text) : UserWorld σ Text :=
  { w with users := w.users.setEnabled false }

section Calls

variable {σ Text : Type} (json : NlohmannText Text) (server : Server σ Text) (apiPath : Str)

/-- The path of a user in a space. -/
def userTarget (spaceId userId : Int64) : Str :=
  apiPath ++ lit "/spaces/" ++ intToString spaceId.toInt ++ lit "/users/" ++
    intToString userId.toInt

/-- The user in a response of success. -/
def fetchedUser (response : ℤ × Text) : Option User :=
  if response.1 = 200 then (json.parse response.2).map User.fromJson else none

/-- What `get_user` makes of a response. -/
def fetchedUserAnswer (response : ℤ × Text) : ℤ × User :=
  (response.1, (fetchedUser json response).getD {})

/-- `get_user`. -/
def getUser (spaceId userId : Int64) (w : UserWorld σ Text) : (ℤ × User) × UserWorld σ Text :=
  let (cached, users) := w.users.get (w.readings w.reads).now userId
  let w := { w with users := users, reads := w.reads + 1 }
  match cached with
  | some user => ((200, user), w)
  | none =>
      let (response, state) := server.answer w.server (.get (userTarget apiPath spaceId userId))
      let w := { w with server := state }
      if response.1 = 200 then
        match json.parse response.2 with
        | some j =>
            let user := User.fromJson j
            let moment := w.readings w.reads
            -- the entry is filed under the id of the response, and the space is forgotten
            ((response.1, user), { w with
              users := w.users.put moment.now moment.sweep user.id user (-1)
              reads := w.reads + 1 })
        | none => ((response.1, {}), w)
      else ((response.1, {}), w)

/-- A history of calls, each for a space and a user. -/
def getUsers : List (Int64 × Int64) → UserWorld σ Text → List (ℤ × User)
  | [], _ => []
  | p :: ps, w =>
      (getUser json server apiPath p.1 p.2 w).1 ::
        getUsers ps (getUser json server apiPath p.1 p.2 w).2

/-- A user of a space is always replied to with `reply`. -/
def ServesUsers (reply : Int64 × Int64 → ℤ × Text) : Prop :=
  ∀ state p, (server.answer state (.get (userTarget apiPath p.1 p.2))).1 = reply p

/-- A user in a reply of success is the one that was asked for. -/
def NamesUsers (reply : Int64 × Int64 → ℤ × Text) : Prop :=
  ∀ p user, fetchedUser json (reply p) = some user → user.id = p.2

/-- The clock stays within the lifetime of an entry. -/
def WithinUserLifetime (readings : ℕ → Moment Int64) : Prop :=
  ∃ start, ∀ n, start ≤ (readings n).now ∧ (readings n).done ≤ start + userTtl * second

/-- The calls are answered the same with the cache and with the cache disabled. -/
def UsersTransparent (history : List (Int64 × Int64)) (state : σ) (readings : ℕ → Moment Int64) :
    Prop :=
  getUsers json server apiPath history (.initial Text state readings) =
    getUsers json server apiPath history (UserWorld.initial Text state readings).disabled

end Calls

/-- A path names one space and one user. -/
theorem userTarget_inj {apiPath : Str} {p q : Int64 × Int64}
    (h : userTarget apiPath p.1 p.2 = userTarget apiPath q.1 q.2) : p = q := by
  unfold userTarget at h
  simp only [List.append_assoc, List.append_cancel_left_eq] at h
  have hslash (rest : Str) : ∀ b ∈ (lit "/users/" ++ rest).head?, Decimal.isDigit b = false := by
    intro b hb
    cases hb
    rfl
  have hp := readInteger_intToString p.1.toInt (hslash (intToString p.2.toInt))
  have hq := readInteger_intToString q.1.toInt (hslash (intToString q.2.toInt))
  rw [h, hq] at hp
  obtain ⟨hspace, hrest⟩ := Prod.mk.inj (Option.some.inj hp)
  have huser : intToString q.2.toInt = intToString p.2.toInt := by
    simpa only [List.append_cancel_left_eq] using hrest
  apply Prod.ext
  · exact (Int64.toInt_inj.1 hspace).symm
  · have hstoll := stoll_intToString q.2
    rw [huser, stoll_intToString] at hstoll
    exact Option.some.inj hstoll

section Histories

variable {σ Text : Type} {json : NlohmannText Text} {server : Server σ Text} {apiPath : Str}
  {reply : Int64 × Int64 → ℤ × Text}

theorem fetchedUserAnswer_of_some {response : ℤ × Text} {user : User}
    (h : fetchedUser json response = some user) :
    fetchedUserAnswer json response = (200, user) := by
  rw [fetchedUserAnswer, h, Option.getD_some]
  unfold fetchedUser at h
  split_ifs at h with hstatus
  rw [hstatus]

variable (json) in
/-- What `get_user` does after a miss. -/
theorem getUser_of_miss {w : UserWorld σ Text} {p : Int64 × Int64}
    (hmiss : (w.users.get (w.readings w.reads).now p.2).1 = none)
    (hreply : ServesUsers server apiPath reply) :
    (getUser json server apiPath p.1 p.2 w).1 = fetchedUserAnswer json (reply p) ∧
      (getUser json server apiPath p.1 p.2 w).2.readings = w.readings ∧
      (getUser json server apiPath p.1 p.2 w).2.users =
        (fetchedUser json (reply p)).elim (w.users.get (w.readings w.reads).now p.2).2 fun user =>
          (w.users.get (w.readings w.reads).now p.2).2.put (w.readings (w.reads + 1)).now
            (w.readings (w.reads + 1)).sweep user.id user (-1) := by
  have hanswer := hreply w.server p
  unfold getUser fetchedUserAnswer fetchedUser
  dsimp only
  rw [hmiss, hanswer]
  dsimp only
  split_ifs with hstatus
  · cases hparse : json.parse (reply p).2 with
    | none => exact ⟨rfl, rfl, rfl⟩
    | some j => exact ⟨rfl, rfl, rfl⟩
  · exact ⟨rfl, rfl, rfl⟩

variable (json server apiPath) in
/-- What `get_user` does after a hit. -/
theorem getUser_of_hit {w : UserWorld σ Text} {p : Int64 × Int64} {user : User}
    (hhit : (w.users.get (w.readings w.reads).now p.2).1 = some user) :
    (getUser json server apiPath p.1 p.2 w).1 = (200, user) ∧
      (getUser json server apiPath p.1 p.2 w).2.readings = w.readings ∧
      (getUser json server apiPath p.1 p.2 w).2.users =
        (w.users.get (w.readings w.reads).now p.2).2 := by
  unfold getUser
  dsimp only
  rw [hhit]
  exact ⟨rfl, rfl, rfl⟩

/-! ### Without the cache -/

theorem getUser_of_disabled (hreply : ServesUsers server apiPath reply) {w : UserWorld σ Text}
    (hw : w.users.enabled = false) (p : Int64 × Int64) :
    (getUser json server apiPath p.1 p.2 w).1 = fetchedUserAnswer json (reply p) ∧
      (getUser json server apiPath p.1 p.2 w).2.users.enabled = false := by
  have hget : w.users.get (w.readings w.reads).now p.2 = (none, w.users) := by
    unfold Cache.get
    rw [hw]
    rfl
  obtain ⟨hanswer, -, husers⟩ := getUser_of_miss json (by rw [hget]) hreply
  refine ⟨hanswer, ?_⟩
  rw [husers, hget]
  cases fetchedUser json (reply p) with
  | none => exact hw
  | some user => exact (Cache.updates_put _ _ _ _ _ _).enabled.trans hw

theorem getUsers_of_disabled (hreply : ServesUsers server apiPath reply) {w : UserWorld σ Text}
    (hw : w.users.enabled = false) (history : List (Int64 × Int64)) :
    getUsers json server apiPath history w =
      history.map fun p => fetchedUserAnswer json (reply p) := by
  induction history generalizing w with
  | nil => rfl
  | cons p history ih =>
    obtain ⟨hanswer, hdisabled⟩ := getUser_of_disabled hreply hw p
    rw [getUsers, hanswer, ih hdisabled, List.map_cons]

/-! ### With the cache -/

variable (json reply) in
/-- What the cache knows after the calls `past`. -/
def knownUser (past : List (Int64 × Int64)) (userId : Int64) : Option User :=
  Memo.known Prod.snd (fun p => fetchedUser json (reply p)) past userId

variable (json reply) in
/-- After the calls `past` the cache has what was fetched for each user first, and keeps it until
the time `finish`. -/
structure Remembers (finish : ℤ) (past : List (Int64 × Int64)) (c : Cache Int64 User) : Prop where
  enabled : c.enabled = true
  defaultTtl : c.defaultTtl = userTtl
  alive : c.AliveUntil finish
  known : ∀ userId, (c.find userId).map CacheEntry.value = knownUser json reply past userId

variable {finish : ℤ} {past : List (Int64 × Int64)} {c : Cache Int64 User}

theorem knownUser_concat (p : Int64 × Int64) (userId : Int64) :
    knownUser json reply (past ++ [p]) userId = (knownUser json reply past userId).or
      (if p.2 = userId then fetchedUser json (reply p) else none) :=
  Memo.known_concat _ _

/-- A lookup finds what is known. -/
theorem Remembers.get (h : Remembers json reply finish past c) {now : ℤ} (hnow : now ≤ finish)
    (userId : Int64) : (c.get now userId).1 = knownUser json reply past userId ∧
      Remembers json reply finish past (c.get now userId).2 := by
  obtain ⟨hvalue, hfind⟩ := h.alive.get h.enabled hnow userId
  refine ⟨hvalue.trans (h.known userId), ?_⟩
  constructor
  · exact (Cache.updates_get now userId c).enabled.trans h.enabled
  · exact (Cache.defaultTtl_get now userId c).trans h.defaultTtl
  · intro k entry hk
    rw [hfind] at hk
    exact h.alive k entry hk
  · intro k
    rw [hfind, h.known]

/-- A call that stores nothing adds nothing to what is known. -/
theorem Remembers.skip (h : Remembers json reply finish past c) {p : Int64 × Int64}
    (hp : knownUser json reply past p.2 = none → fetchedUser json (reply p) = none) :
    Remembers json reply finish (past ++ [p]) c := by
  refine { h with known := fun userId => ?_ }
  rw [h.known, knownUser_concat]
  by_cases hid : p.2 = userId
  · subst hid
    cases hknown : knownUser json reply past p.2 with
    | none => rw [hp hknown, ite_self, Option.or_none]
    | some user => rw [Option.some_or]
  · rw [if_neg hid, Option.or_none]

/-- A user that was fetched is known from now on. -/
theorem Remembers.put (h : Remembers json reply finish past c) {p : Int64 × Int64} {user : User}
    (hknown : knownUser json reply past p.2 = none)
    (hfetched : fetchedUser json (reply p) = some user) (hid : user.id = p.2)
    {moment : Moment Int64} (hdone : moment.done ≤ finish)
    (hlife : finish ≤ moment.now + userTtl * second) :
    Remembers json reply finish (past ++ [p])
      (c.put moment.now moment.sweep user.id user (-1)) := by
  have hnanos : finish - moment.now ≤ toNanoseconds (Cache.lifetime c.defaultTtl (-1)) := by
    have hdefault : toNanoseconds (Cache.lifetime userTtl (-1)) = userTtl * second := by decide
    rw [h.defaultTtl, hdefault]
    omega
  obtain ⟨hfind, halive⟩ := h.alive.put h.enabled
    (fun k => (moment.sweep_le_done k).trans hdone) user.id user hnanos
  constructor
  · exact (Cache.updates_put _ _ _ _ _ _).enabled.trans h.enabled
  · exact (Cache.defaultTtl_put _ _ _ _ _ _).trans h.defaultTtl
  · exact halive
  · intro userId
    rw [hfind, knownUser_concat, hid]
    by_cases huser : userId = p.2
    · rw [huser, Function.update_self, if_pos rfl, hknown, hfetched]
      rfl
    · rw [Function.update_of_ne huser, if_neg (Ne.symm huser), Option.or_none, h.known]

/-- **One call** is answered from memory where it can be, and the memory takes in what it
fetches. -/
theorem Remembers.getUser (hreply : ServesUsers server apiPath reply)
    (hnames : NamesUsers json reply) {w : UserWorld σ Text} {start : ℤ}
    (hlifetime : ∀ n, start ≤ (w.readings n).now ∧ (w.readings n).done ≤ start + userTtl * second)
    (h : Remembers json reply (start + userTtl * second) past w.users) (p : Int64 × Int64) :
    (getUser json server apiPath p.1 p.2 w).1 =
        Memo.answer Prod.snd (fun p => fetchedUser json (reply p)) (Prod.mk 200)
          (fun p => fetchedUserAnswer json (reply p)) past p ∧
      (getUser json server apiPath p.1 p.2 w).2.readings = w.readings ∧
      Remembers json reply (start + userTtl * second) (past ++ [p])
        (getUser json server apiPath p.1 p.2 w).2.users := by
  have hnow := (w.readings w.reads).now_le_done.trans (hlifetime w.reads).2
  obtain ⟨hvalue, hkept⟩ := h.get hnow p.2
  show _ = Option.getD (Option.map _ (knownUser json reply past p.2)) _ ∧ _
  cases hknown : knownUser json reply past p.2 with
  | some user =>
    obtain ⟨hanswer, hreadings, husers⟩ := getUser_of_hit json server apiPath
      (hvalue.trans hknown)
    refine ⟨hanswer, hreadings, ?_⟩
    rw [husers]
    exact hkept.skip fun hnone => by rw [hknown] at hnone; cases hnone
  | none =>
    obtain ⟨hanswer, hreadings, husers⟩ := getUser_of_miss json
      (hvalue.trans hknown) hreply
    refine ⟨hanswer, hreadings, ?_⟩
    rw [husers]
    cases hfetched : fetchedUser json (reply p) with
    | none => exact hkept.skip fun _ => hfetched
    | some user =>
      have hlife := (hlifetime (w.reads + 1)).1
      exact hkept.put hknown hfetched (hnames p user hfetched) (hlifetime _).2 (by omega)

theorem getUsers_of_remembers (hreply : ServesUsers server apiPath reply)
    (hnames : NamesUsers json reply) {w : UserWorld σ Text} {start : ℤ}
    (hlifetime : ∀ n, start ≤ (w.readings n).now ∧ (w.readings n).done ≤ start + userTtl * second)
    (h : Remembers json reply (start + userTtl * second) past w.users)
    (history : List (Int64 × Int64)) : getUsers json server apiPath history w =
      Memo.answers Prod.snd (fun p => fetchedUser json (reply p)) (Prod.mk 200)
        (fun p => fetchedUserAnswer json (reply p)) past history := by
  induction history generalizing past w with
  | nil => rfl
  | cons p history ih =>
    obtain ⟨hanswer, hreadings, hnext⟩ := h.getUser hreply hnames hlifetime p
    rw [← hreadings] at hlifetime
    rw [getUsers, Memo.answers, hanswer, ih hlifetime hnext]

end Histories

/-- The second call is not answered from what the first one left behind, or that is what the server
would reply as well. -/
def SameInBothSpaces {Text : Type} (json : NlohmannText Text) (reply : Int64 × Int64 → ℤ × Text)
    (p q : Int64 × Int64) : Prop :=
  p.2 = q.2 → ∀ user, fetchedUser json (reply p) = some user →
    fetchedUserAnswer json (reply q) = (200, user)

/-- **A history is answered as without the cache** exactly when every call that asks for a user who
was fetched before is replied to with the same user. -/
theorem usersTransparent_iff {σ Text : Type} {json : NlohmannText Text} {server : Server σ Text}
    {apiPath : Str} {reply : Int64 × Int64 → ℤ × Text}
    (hreply : ServesUsers server apiPath reply) (hnames : NamesUsers json reply)
    (history : List (Int64 × Int64)) (state : σ) {readings : ℕ → Moment Int64}
    (hlifetime : WithinUserLifetime readings) :
    UsersTransparent json server apiPath history state readings ↔
      history.Pairwise (SameInBothSpaces json reply) := by
  obtain ⟨start, hlifetime⟩ := hlifetime
  have hinitial : Remembers json reply (start + userTtl * second) []
      (UserWorld.initial Text state readings).users :=
    ⟨rfl, rfl, fun _ _ h => (by cases h), fun _ => rfl⟩
  unfold UsersTransparent
  rw [getUsers_of_remembers hreply hnames hlifetime hinitial, getUsers_of_disabled hreply rfl]
  exact Memo.answers_eq_map_iff (fun p user h => fetchedUserAnswer_of_some h) history

/-! ### A user of one space -/

/-- The user 7. -/
def userSeven : Json := .object [(lit "id", .integer 7)]

/-- The user 7 belongs to the space 1, and there is nobody else. -/
def sevenReply (p : Int64 × Int64) : ℤ × Option { j : Json // j.validUtf8 = true } :=
  if p = (1, 7) then (200, some ⟨userSeven, by decide +kernel⟩) else (404, none)

/-- The server with these replies. -/
def sevenServer : Server Unit (Option { j : Json // j.validUtf8 = true }) where
  answer _ r :=
    match r with
    | .get target => (if target = userTarget [] 1 7 then sevenReply (1, 7) else (404, none), ())
    | _ => ((404, none), ())
  users _ := (fun _ => (404, none), ())

/-- Every reading of the clock shows the same time. -/
def standing : ℕ → Moment Int64 := fun _ => .at Int64 0

theorem sevenServer_serves : ServesUsers sevenServer [] sevenReply := by
  intro state p
  show (if userTarget [] p.1 p.2 = userTarget [] 1 7 then sevenReply (1, 7) else (404, none)) = _
  by_cases hp : p = (1, 7)
  · rw [hp, if_pos rfl]
  · have htarget : userTarget [] p.1 p.2 ≠ userTarget [] 1 7 := fun h =>
      hp (userTarget_inj (q := (1, 7)) h)
    rw [if_neg htarget, sevenReply, if_neg hp]

theorem fetchedUser_seven (p : Int64 × Int64) : fetchedUser .symbolic (sevenReply p) =
    if p = (1, 7) then some (User.fromJson userSeven) else none := by
  unfold sevenReply
  split_ifs
  · rfl
  · rfl

theorem sevenReply_names : NamesUsers .symbolic sevenReply := by
  intro p user h
  rw [fetchedUser_seven] at h
  split_ifs at h with hp
  cases h
  rw [hp]
  decide +kernel

theorem standing_lifetime : WithinUserLifetime standing := by
  refine ⟨0, fun n => ⟨le_rfl, ?_⟩⟩
  show (0 : ℤ) ≤ 0 + userTtl * second
  decide

theorem usersTransparent_iff_seven :
    UsersTransparent .symbolic sevenServer [] [(1, 7), (3, 4), (1, 7)] () standing := by
  refine (usersTransparent_iff sevenServer_serves sevenReply_names _ () standing_lifetime).2 ?_
  have hself : SameInBothSpaces .symbolic sevenReply (1, 7) (1, 7) := by
    intro _ user huser
    exact fetchedUserAnswer_of_some huser
  have hother {p q : Int64 × Int64} (h : p.2 ≠ q.2) : SameInBothSpaces .symbolic sevenReply p q :=
    fun hpq => absurd hpq h
  simp [hself, hother (p := (1, 7)) (q := (3, 4)) (by decide),
    hother (p := (3, 4)) (q := (1, 7)) (by decide)]

/-- The user 7 of the space 1 is returned for the space 2, where there is nobody. -/
theorem other_space_answered : ServesUsers sevenServer [] sevenReply ∧
    NamesUsers .symbolic sevenReply ∧ WithinUserLifetime standing ∧
    ¬ UsersTransparent .symbolic sevenServer [] [(1, 7), (2, 7)] () standing := by
  refine ⟨sevenServer_serves, sevenReply_names, standing_lifetime, fun h => ?_⟩
  have hstatus := congrArg (List.map Prod.fst) h
  revert hstatus
  decide +kernel

end Kaiten
