import Enclosure.Json.Parser
import Enclosure.Text.Integer
import Enclosure.Timestamp.Layout

/-!
# What is expected in a payload

A server sends JSON, and what it sends is expected to have a certain shape. An object stands for a
record: the members that the record has are expected to have shapes of their own, and members of
other names do not matter. A name counts in any case. Wherever a value is expected there may also be
none.

A value of another kind is a fault, but the reading goes on, and the first fault is reported. Only a
point in time that cannot be read ends the reading at once, and it is reported before all others.

## Main definitions

* `PayloadFault`: what is wrong with a payload.
* `Shape`, `RecordKind.members`: what is expected of a value, and of the members of a record.
* `Shape.faults`: the faults of a value.
* `PayloadFault.reported?`: the fault that is reported.
-/

namespace Enclosure

/-- What is wrong with a payload. -/
inductive PayloadFault where
  /-- The text is no JSON. -/
  | noJson (fault : JsonFault)
  /-- A value of some kind stands where one of another type is expected. -/
  | mismatch (found place expected : Text)
  /-- A point in time cannot be read. -/
  | badTime (value : Text) (error : TimeError)
deriving DecidableEq, Repr

namespace PayloadFault

/-- The layout of the points in time in a payload. -/
def timeLayout : TimeLayout :=
  .internet "\""

/-- The wording of a fault. -/
def message : PayloadFault → Text
  | noJson fault => fault.message
  | mismatch found place expected =>
    "json: cannot unmarshal " ++ found ++ " into Go " ++ place ++ " of type " ++ expected
  | badTime value error => error.message timeLayout.shown value

/-- Whether a fault ends the reading. -/
def isFinal : PayloadFault → Bool
  | badTime _ _ => true
  | _ => false

/-- The fault that is reported, if there are any. -/
def reported? (faults : List PayloadFault) : Option PayloadFault :=
  (faults.find? isFinal).or faults.head?

end PayloadFault

namespace Payload

/-- The kind of a value in words. -/
def kindName : Json → Text
  | .null => "null"
  | .bool _ => "bool"
  | .number _ => "number"
  | .string _ => "string"
  | .array _ => "array"
  | .object _ => "object"

/-- The character that stands for all the cases of a character, as far as ASCII letters are among
them: the long s and the Kelvin sign are cases of letters too. -/
def foldCase (c : Char) : Char :=
  if c == 'ſ' then 'S' else if c == 'K' then 'K' else c.toUpper

/-- Whether a member has the given name in any case. -/
def isNamed (name : String) (member : Text × Json) : Bool :=
  member.1.runes.map (fun r => foldCase r.toChar) == name.toList.map foldCase

/-- The first second that is not taken for one: the start of the year 3001. -/
def firstMillisecond : Int := 32535216000

/-- The point in time given by a number: seconds, or milliseconds if the number is too large. -/
def instantOfNumber (n : Int) : Instant :=
  if n < firstMillisecond then ⟨n, 0⟩
  else
    let nanos := wrap64 (n * 1000000)
    ⟨nanos / 1000000000, (nanos % 1000000000).toNat⟩

/-- The point in time that a value stands for: a number or a text. -/
def readInstant (v : Json) : Except PayloadFault Instant :=
  let spelled := v.renderPlain
  match Text.decimal spelled with
  | .ok n => .ok (instantOfNumber n)
  | .error _ => (PayloadFault.timeLayout.parse spelled).mapError (.badTime spelled)

end Payload

/-! ### Shapes -/

/-- The records of a payload. -/
inductive RecordKind where
  | pull
  | comment
  | branch
  | repository
  | user
  | team
  | label
  | milestone
  | autoMerge
  | links
  | link
  | reactions
deriving DecidableEq, Repr

/-- What a value is expected to be. -/
inductive Shape where
  | text
  | truth
  | int
  | int64
  | instant
  | record (kind : RecordKind)
  /-- An object that is not looked into. -/
  | object (type : Text)
  | list (item : Shape)
  /-- An object with members of any names. -/
  | table (item : Shape)
deriving DecidableEq, Repr

/-- The name of a record in reports. -/
def RecordKind.shown : RecordKind → Text
  | pull => "PullRequest"
  | comment => "IssueComment"
  | branch => "PullRequestBranch"
  | repository => "Repository"
  | user => "User"
  | team => "Team"
  | label => "Label"
  | milestone => "Milestone"
  | autoMerge => "PullRequestAutoMerge"
  | links => "PRLinks"
  | link => "PRLink"
  | reactions => "Reactions"

namespace Shape

/-- The name of a shape in reports. The items of a list are pointed to if they are objects. -/
def shown : Shape → Text
  | text => "string"
  | truth => "bool"
  | int => "int"
  | int64 => "int64"
  | instant => "github.Timestamp"
  | record kind => "github." ++ kind.shown
  | object type => type
  | list (record kind) => "[]*github." ++ kind.shown
  | list (object type) => "[]*" ++ type
  | list item => "[]" ++ item.shown
  | table item => "map[string]" ++ item.shown

/-- Members of one shape. -/
def each (shape : Shape) (names : List String) : List (String × Shape) :=
  names.map (·, shape)

end Shape

/-- The members of a record, with what is expected of them. -/
def RecordKind.members : RecordKind → List (String × Shape)
  | pull =>
    Shape.each .int ["number", "comments", "commits", "additions", "deletions", "changed_files",
      "review_comments"]
    ++ Shape.each (.record .branch) ["base", "head"]
    ++ Shape.each .text ["state", "title", "body", "url", "html_url", "issue_url", "statuses_url",
      "diff_url", "patch_url", "commits_url", "comments_url", "review_comments_url",
      "review_comment_url", "author_association", "node_id", "mergeable_state", "merge_commit_sha",
      "active_lock_reason"]
    ++ Shape.each .truth ["locked", "draft", "merged", "mergeable", "rebaseable",
      "maintainer_can_modify"]
    ++ Shape.each .instant ["created_at", "updated_at", "closed_at", "merged_at"]
    ++ Shape.each (.record .user) ["user", "assignee", "merged_by"]
    ++ Shape.each (.list (.record .user)) ["assignees", "requested_reviewers"]
    ++ [("id", .int64), ("labels", .list (.record .label)), ("milestone", .record .milestone),
      ("auto_merge", .record .autoMerge), ("requested_teams", .list (.record .team)),
      ("_links", .record .links)]
  | comment =>
    Shape.each .int64 ["id"]
    ++ Shape.each .text ["body", "node_id", "author_association", "url", "html_url", "issue_url"]
    ++ Shape.each .instant ["created_at", "updated_at"]
    ++ [("user", .record .user), ("reactions", .record .reactions)]
  | branch =>
    Shape.each .text ["sha", "label", "ref"]
    ++ [("repo", .record .repository), ("user", .record .user)]
  | repository =>
    Shape.each .text ["node_id", "name", "full_name", "description", "homepage", "default_branch",
      "master_branch", "html_url", "clone_url", "git_url", "mirror_url", "ssh_url", "svn_url",
      "language", "squash_merge_commit_title", "squash_merge_commit_message", "merge_commit_title",
      "merge_commit_message", "license_template", "gitignore_template", "url", "archive_url",
      "assignees_url", "blobs_url", "branches_url", "collaborators_url", "comments_url",
      "commits_url", "compare_url", "contents_url", "contributors_url", "deployments_url",
      "downloads_url", "events_url", "forks_url", "git_commits_url", "git_refs_url", "git_tags_url",
      "hooks_url", "issue_comment_url", "issue_events_url", "issues_url", "keys_url", "labels_url",
      "languages_url", "merges_url", "milestones_url", "notifications_url", "pulls_url",
      "releases_url", "stargazers_url", "statuses_url", "subscribers_url", "subscription_url",
      "tags_url", "trees_url", "teams_url", "visibility", "role_name"]
    ++ Shape.each .truth ["fork", "auto_init", "allow_rebase_merge", "allow_update_branch",
      "allow_squash_merge", "allow_merge_commit", "allow_auto_merge", "allow_forking",
      "web_commit_signoff_required", "delete_branch_on_merge", "use_squash_pr_title_as_default",
      "archived", "disabled", "private", "has_issues", "has_wiki", "has_pages", "has_projects",
      "has_downloads", "has_discussions", "is_template"]
    ++ Shape.each .int ["forks_count", "network_count", "open_issues_count", "open_issues",
      "stargazers_count", "subscribers_count", "watchers_count", "watchers", "size"]
    ++ Shape.each .int64 ["id", "team_id"]
    ++ Shape.each .instant ["created_at", "pushed_at", "updated_at"]
    ++ Shape.each (.record .repository) ["parent", "source", "template_repository"]
    ++ [("owner", .record .user), ("permissions", .table .truth), ("topics", .list .text),
      ("organization", .object "github.Organization"), ("license", .object "github.License"),
      ("code_of_conduct", .object "github.CodeOfConduct"),
      ("custom_properties", .object "map[string]interface \x7b\x7d"),
      ("security_and_analysis", .object "github.SecurityAndAnalysis"),
      ("text_matches", .list (.object "github.TextMatch"))]
  | user =>
    Shape.each .text ["login", "node_id", "avatar_url", "html_url", "gravatar_id", "name",
      "company", "blog", "location", "email", "bio", "twitter_username", "type", "ldap_dn", "url",
      "events_url", "following_url", "followers_url", "gists_url", "organizations_url",
      "received_events_url", "repos_url", "starred_url", "subscriptions_url", "role_name"]
    ++ Shape.each .truth ["hireable", "site_admin", "two_factor_authentication"]
    ++ Shape.each .int ["public_repos", "public_gists", "followers", "following", "private_gists",
      "disk_usage", "collaborators"]
    ++ Shape.each .int64 ["id", "total_private_repos", "owned_private_repos"]
    ++ Shape.each .instant ["created_at", "updated_at", "suspended_at"]
    ++ [("plan", .object "github.Plan"), ("permissions", .table .truth),
      ("text_matches", .list (.object "github.TextMatch"))]
  | team =>
    Shape.each .text ["node_id", "name", "description", "url", "slug", "permission", "privacy",
      "notification_setting", "html_url", "members_url", "repositories_url", "ldap_dn"]
    ++ Shape.each .int ["members_count", "repos_count"]
    ++ [("id", .int64), ("permissions", .table .truth), ("parent", .record .team),
      ("organization", .object "github.Organization")]
  | label =>
    Shape.each .text ["url", "name", "color", "description", "node_id"]
    ++ [("id", .int64), ("default", .truth)]
  | milestone =>
    Shape.each .text ["url", "html_url", "labels_url", "state", "title", "description", "node_id"]
    ++ Shape.each .int ["number", "open_issues", "closed_issues"]
    ++ Shape.each .instant ["created_at", "updated_at", "closed_at", "due_on"]
    ++ [("id", .int64), ("creator", .record .user)]
  | autoMerge =>
    Shape.each .text ["merge_method", "commit_title", "commit_message"]
    ++ [("enabled_by", .record .user)]
  | links =>
    Shape.each (.record .link) ["self", "html", "issue", "comments", "review_comments",
      "review_comment", "commits", "statuses"]
  | link => [("href", .text)]
  | reactions =>
    Shape.each .int ["total_count", "+1", "-1", "laugh", "confused", "heart", "hooray", "rocket",
      "eyes"]
    ++ [("url", .text)]

/-- The member of a record that a member of an object stands for, with what is expected of it. -/
def RecordKind.member? (kind : RecordKind) (member : Text × Json) : Option (String × Shape) :=
  kind.members.find? fun m => Payload.isNamed m.1 member

/-! ### Faults -/

/-- The path of a member of what is at a path. -/
def memberPath (path name : Text) : Text :=
  if path.isEmpty then name else path ++ "." ++ name

/-- The faults of a value, not looking into it. -/
def Shape.plainFaults (shape : Shape) (place : Text) (v : Json) : List PayloadFault :=
  let mismatch (found : Text) : List PayloadFault := [.mismatch found place shape.shown]
  match shape, v with
  | .text, .string _ => []
  | .truth, .bool _ => []
  | .int, .number token | .int64, .number token =>
    if (Text.decimal token).toBool then [] else mismatch ("number " ++ token)
  | .instant, v =>
    match Payload.readInstant v with
    | .ok _ => []
    | .error fault => [fault]
  | .object _, .object _ => []
  | _, v => mismatch (Payload.kindName v)

mutual

/-- The faults of a value, given in words where it stands, and the path of names that lead to it. -/
def Shape.faults (shape : Shape) (place path : Text) : Json → List PayloadFault
  | .null => []
  | .array items =>
    match shape with
    | .list item => itemFaults item place path items
    | shape => shape.plainFaults place (.array items)
  | .object members =>
    match shape with
    | .record kind => kind.memberFaults path members
    | .table item => entryFaults item place path members
    | shape => shape.plainFaults place (.object members)
  | v => shape.plainFaults place v

/-- The faults of the items of a list. -/
def itemFaults (item : Shape) (place path : Text) : List Json → List PayloadFault
  | [] => []
  | v :: items => item.faults place path v ++ itemFaults item place path items

/-- The faults of the members of a table. -/
def entryFaults (item : Shape) (place path : Text) : List (Text × Json) → List PayloadFault
  | [] => []
  | (_, v) :: members => item.faults place path v ++ entryFaults item place path members

/-- The faults of the members of a record. -/
def RecordKind.memberFaults (kind : RecordKind) (path : Text) :
    List (Text × Json) → List PayloadFault
  | [] => []
  | (name, v) :: members =>
    (match kind.member? (name, v) with
      | none => []
      | some (name, shape) =>
        let path := memberPath path name
        shape.faults ("struct field " ++ kind.shown ++ "." ++ path) path v)
      ++ kind.memberFaults path members

end

end Enclosure
