import Enclosure.PullRequest.Session

/-!
# Calls that were answered

A session writes down each call it makes together with the reply. Nothing but these calls changes
the server: each operation takes it from the state it was in to the state that the calls lead to,
and each reply is the one that the server gave. An operation that makes no call leaves the server
alone.

## Main definitions

* `Server.Answers`: calls that take a server from one state to another.
* `Session.Reaches`: a session that is reached from another by calls.

## Main results

* `Session.reaches_listFrom`: following the pages makes calls and nothing else.
* `Session.reaches_perform`: **every operation changes the server by its calls alone**.
-/

namespace Enclosure

variable {σ : Type}

/-- The calls were **answered** by the server, one after the other, and took it from one state to
another. -/
def Server.Answers (server : Server σ) : List ApiEvent → σ → σ → Prop
  | [], a, b => a = b
  | e :: calls, a, b =>
    (server.answer e.call a).1 = e.reply ∧ server.Answers calls (server.answer e.call a).2 b

/-- Calls after calls. -/
theorem Server.Answers.append {server : Server σ} {calls more : List ApiEvent} {a b c : σ}
    (h : server.Answers calls a b) (h' : server.Answers more b c) :
    server.Answers (calls ++ more) a c := by
  induction calls generalizing a with
  | nil =>
      obtain rfl : a = b := h
      exact h'
  | cons e calls ih => exact ⟨h.1, ih h.2⟩

/-- A session that is **reached** from another by calls, each of which is written down. -/
def Session.Reaches (server : Server σ) (s s' : Session σ) : Prop :=
  ∃ calls, s'.events = s.events ++ calls ∧ server.Answers calls s.server s'.server

namespace Session

variable {server : Server σ} {s s' s'' : Session σ}

/-- A session with the same server and the same calls is reached by no calls at all. -/
theorem Reaches.of_eq (hserver : s'.server = s.server) (hevents : s'.events = s.events) :
    Reaches server s s' :=
  ⟨[], by rw [hevents, List.append_nil], hserver.symm⟩

/-- Calls after calls. -/
theorem Reaches.trans (h : Reaches server s s') (h' : Reaches server s' s'') :
    Reaches server s s'' := by
  obtain ⟨calls, hevents, hanswers⟩ := h
  obtain ⟨more, hevents', hanswers'⟩ := h'
  exact ⟨calls ++ more, by rw [hevents', hevents, List.append_assoc], hanswers.append hanswers'⟩

variable (server)

/-- A call. -/
theorem reaches_call (c : ApiCall) (s : Session σ) : Reaches server s (s.call server c).2 :=
  ⟨[⟨c, (s.call server c).1⟩], rfl, rfl, rfl⟩

/-- Asking for a pull request. -/
theorem reaches_loadPull (number : Int) (s : Session σ) :
    Reaches server s (s.loadPull server number).2 := by
  have hcall := reaches_call server (.pull number) s
  rw [loadPull]
  generalize s.call server (.pull number) = outcome at hcall ⊢
  obtain ⟨_ | pull, s'⟩ := outcome
  · exact hcall
  · exact hcall.trans (.of_eq rfl rfl)

/-- Following the pages. -/
theorem reaches_listFrom (pull : Int) (limit : Nat) (page : Int) (s : Session σ) :
    Reaches server s (s.listFrom server pull limit page).2 := by
  induction limit generalizing page s with
  | zero => exact .of_eq rfl rfl
  | succ limit ih =>
      have hcall := reaches_call server (.comments pull page) s
      rw [listFrom]
      generalize s.call server (.comments pull page) = outcome at hcall ⊢
      obtain ⟨_ | reply, s'⟩ := outcome
      · exact hcall
      · by_cases hnext : reply.next = 0
        · simp only [if_pos hnext]
          exact hcall
        · have hmore := ih reply.next s'
          simp only [if_neg hnext]
          generalize s'.listFrom server pull limit reply.next = outcome at hmore ⊢
          obtain ⟨_ | more, s''⟩ := outcome
          · exact hcall.trans hmore
          · exact hcall.trans hmore

/-- Asking for all comments. -/
theorem reaches_loadComments (s : Session σ) : Reaches server s (s.loadComments server).2 := by
  rw [loadComments]
  cases s.pull with
  | none => exact .of_eq rfl rfl
  | some pull =>
      have hlist := reaches_listFrom server pull.number (server.pageLimit s.server) 1 s
      simp only
      generalize s.listFrom server pull.number (server.pageLimit s.server) 1 = outcome at hlist ⊢
      obtain ⟨_ | comments, s'⟩ := outcome
      · exact hlist
      · exact hlist.trans (.of_eq rfl rfl)

/-- Writing a comment. -/
theorem reaches_write (c : ApiCall) (s : Session σ) : Reaches server s (s.write server c).2 := by
  have hcall := reaches_call server c s
  rw [write]
  generalize s.call server c = outcome at hcall ⊢
  obtain ⟨_ | reply, s'⟩ := outcome
  · exact hcall
  · exact hcall

/-- Adding a comment. -/
theorem reaches_addComment (body : Text) (s : Session σ) :
    Reaches server s (s.addComment server body).2 := by
  rw [addComment]
  cases s.pull with
  | none => exact .of_eq rfl rfl
  | some pull => exact reaches_write server _ s

/-- Editing a comment. -/
theorem reaches_editComment (id : Int) (body : Text) (s : Session σ) :
    Reaches server s (s.editComment server id body).2 := by
  rw [editComment]
  cases s.pull with
  | none => exact .of_eq rfl rfl
  | some pull => exact reaches_write server _ s

/-- Looking for a comment with a given beginning. -/
theorem reaches_findComment (start : Text) (since : Option Instant) (s : Session σ) :
    Reaches server s (s.findComment server start since).2 := by
  have hload := reaches_loadComments server s
  rw [findComment]
  generalize s.loadComments server = outcome at hload ⊢
  obtain ⟨_ | _, s'⟩ := outcome
  · exact hload
  · exact hload

/-- Putting a comment. -/
theorem reaches_putComment (start body : Text) (s : Session σ) :
    Reaches server s (s.putComment server start body).2 := by
  have hfind := reaches_findComment server start none s
  rw [putComment]
  generalize s.findComment server start none = outcome at hfind ⊢
  obtain ⟨_ | _ | id, s'⟩ := outcome
  · exact hfind
  · exact (hfind.trans (.of_eq rfl rfl)).trans (reaches_addComment server body _)
  · exact (hfind.trans (.of_eq rfl rfl)).trans (reaches_editComment server id body _)

/-- Looking for the very comment. -/
theorem reaches_hasComment (body : Text) (since : Option Instant) (s : Session σ) :
    Reaches server s (s.hasComment server body since).2 := by
  rw [hasComment]
  cases s.pull with
  | none => exact .of_eq rfl rfl
  | some pull =>
      have hload := reaches_loadComments server s
      simp only [ensureComments]
      split
      · exact .of_eq rfl rfl
      · generalize s.loadComments server = outcome at hload ⊢
        obtain ⟨_ | _, s'⟩ := outcome
        · exact hload.trans (.of_eq rfl rfl)
        · exact hload

/-- **Every operation changes the server by its calls alone**, and writes them down. -/
theorem reaches_perform (step : SessionStep) (s : Session σ) :
    Reaches server s (s.perform server step).2 := by
  cases step with
  | loadPull number => exact reaches_loadPull server number s
  | loadComments => exact reaches_loadComments server s
  | addComment body => exact reaches_addComment server body s
  | editComment id body => exact reaches_editComment server id body s
  | putComment start body => exact reaches_putComment server start body s
  | findComment start since => exact reaches_findComment server start since s
  | hasComment body since => exact reaches_hasComment server body since s

end Session

end Enclosure
