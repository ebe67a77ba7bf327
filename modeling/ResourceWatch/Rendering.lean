import ResourceWatch.Region.Key
import ResourceWatch.Resource
import ResourceWatch.Template.Filling

/-!
# Renderings of a resource

The client rendering gives a client type a getter and a watch for the resource; the server rendering answers both
calls for the resource's endpoint.  Each is a built-in template, whose first and last line are the tags of the region
it is meant for, filled with the names of the resource and the paths of the naming settings.
-/

namespace ResourceWatch

/-- The names that generated code refers to. -/
structure Naming where
  /-- The environment variable that holds the target file's path. -/
  targetEnv : String := "GETWATCH_FILE"
  protoModule : String := "pb"
  runtimeCrate : String := "getwatch"
  clientType : String := "Client"
deriving DecidableEq, Repr

namespace Rendering

/-- A slot as it is written in a template. -/
def slot (name : String) : String := "\x7b\x7b" ++ name ++ "\x7d\x7d"

/-- The lines of a template, which begins and ends with a line feed. -/
def templateText (ls : List String) : String := "\n" ++ String.join (ls.map (· ++ "\n"))

theorem toList_templateText (ls : List String) :
    (templateText ls).toList = '\n' :: ls.flatMap fun l => l.toList ++ ['\n'] := by
  simp [templateText, String.toList_append, String.toList_join, List.flatMap_map]

/-- The lines of a region between the tags of a key. -/
def tagged (key : String) (body : List String) : List String :=
  (Region.tagMark ++ " " ++ key ++ " START") :: body ++ [Region.tagMark ++ " " ++ key ++ " END"]

/-- A piece of a line: a text, or a slot by its name. -/
inductive Piece where
  | text (s : String)
  | slot (name : String)

instance : Coe String Piece := ⟨.text⟩

/-- What stands for the piece, with `f` for the slots. -/
def Piece.write (f : String → String) : Piece → String
  | .text s => s
  | .slot name => f name

def writeLine (f : String → String) (ps : List Piece) : String := String.join (ps.map (Piece.write f))

theorem toList_writeLine (f : String → String) (ps : List Piece) :
    (writeLine f ps).toList = ps.flatMap fun p => (p.write f).toList := by
  simp [writeLine, String.toList_join, List.flatMap_map]

theorem writeLine_cons (f : String → String) (p : Piece) (ps : List Piece) :
    writeLine f (p :: ps) = p.write f ++ writeLine f ps := by
  rw [← String.toList_inj, String.toList_append, toList_writeLine, toList_writeLine, List.flatMap_cons]

/-- The lines of the client region between its tags. -/
def clientLines : List (List Piece) := [
  ["impl ", .slot "client_type", " \x7b"],
  ["    /// Fetches the current `", .slot "name", "` value."],
  ["    pub async fn ", .slot "snake", "_get(&self", .slot "param_str", ") -> Result<", .slot "pb", "::",
    .slot "name", "Reply, tonic::Status> \x7b"],
  ["        let request = ", .slot "pb", "::", .slot "name", "Request ", .slot "req_init", ";"],
  ["        let mut client = self.", .slot "snake", "_client.clone();"],
  ["        ", .slot "rt", "::call_with_timeout(self.timeout, client.get(request)).await"],
  ["    \x7d"],
  [],
  ["    /// Opens a long-lived watch on `", .slot "name", "`."],
  ["    pub async fn ", .slot "snake", "_watch(&self", .slot "param_str", ") -> Result<", .slot "name",
    "Watcher, tonic::Status> \x7b"],
  ["        let request = ", .slot "pb", "::", .slot "name", "Request ", .slot "req_init", ";"],
  ["        let mut client = self.", .slot "snake", "_client.clone();"],
  ["        let stream = client.watch(request).await?.into_inner();"],
  ["        Ok(", .slot "rt", "::Watcher::spawn(stream, self.cancel.child_token()))"],
  ["    \x7d"],
  ["\x7d"],
  [],
  ["pub type ", .slot "name", "Watcher = ", .slot "rt", "::Watcher<", .slot "pb", "::", .slot "name", "Reply>;"]]

/-- The lines of the server region between its tags. -/
def serverLines : List (List Piece) := [
  ["#[tonic::async_trait]"],
  ["impl ", .slot "pb", "::", .slot "snake", "_server::", .slot "name", " for ", .slot "name", "Endpoint \x7b"],
  ["    type WatchStream = ", .slot "rt", "::WatchStream<", .slot "pb", "::", .slot "name", "Reply>;"],
  [],
  ["    async fn get("],
  ["        &self,"],
  ["        request: tonic::Request<", .slot "pb", "::", .slot "name", "Request>,"],
  ["    ) -> Result<tonic::Response<", .slot "pb", "::", .slot "name", "Reply>, tonic::Status> \x7b"],
  ["        let ctx = ", .slot "rt", "::CallContext::from_request(&request);"],
  ["        let reply = ", .slot "rt", "::handle_get(self, request.get_ref(), &ctx).await?;"],
  ["        Ok(tonic::Response::new(reply))"],
  ["    \x7d"],
  [],
  ["    async fn watch("],
  ["        &self,"],
  ["        request: tonic::Request<", .slot "pb", "::", .slot "name", "Request>,"],
  ["    ) -> Result<tonic::Response<Self::WatchStream>, tonic::Status> \x7b"],
  ["        let ctx = ", .slot "rt", "::CallContext::from_request(&request);"],
  ["        let stream = ", .slot "rt", "::serve_watch(self.clone(), request.into_inner(), ctx).await?;"],
  ["        Ok(tonic::Response::new(stream))"],
  ["    \x7d"],
  ["\x7d"]]

def clientBody (f : String → String) : List String := clientLines.map (writeLine f)

def serverBody (f : String → String) : List String := serverLines.map (writeLine f)

def clientTemplate : String := templateText (tagged (slot "name") (clientBody slot))

def serverTemplate : String := templateText (tagged (slot "index") (serverBody slot))

def clientTemplateName : String := "client"

def serverTemplateName : String := "server"

/-- The built-in templates. -/
def builtIn : Except TemplateError TemplateSet :=
  TemplateSet.ofTexts [(clientTemplateName, clientTemplate), (serverTemplateName, serverTemplate)]

/-- The parameter that the accessors take after `self`. -/
def keyParameter : Option String → String
  | none => ""
  | some key => ", " ++ fieldName key ++ ": String"

/-- The fields of the request message. -/
def requestFields : Option String → String
  | none => "\x7b\x7d"
  | some key => "\x7b " ++ fieldName key ++ " \x7d"

def clientBindings (r : Resource) (naming : Naming) : Template.Bindings := [
  ("name", r.name), ("snake", r.snakeName), ("param_str", keyParameter r.key), ("req_init", requestFields r.key),
  ("pb", naming.protoModule), ("rt", naming.runtimeCrate), ("client_type", naming.clientType)]

def serverBindings (index : UInt32) (r : Resource) (naming : Naming) : Template.Bindings := [
  ("index", index.toNat.repr), ("name", r.name), ("snake", r.snakeName), ("pb", naming.protoModule),
  ("rt", naming.runtimeCrate)]

def client (r : Resource) (naming : Naming) : Except TemplateError String := do
  (← builtIn).render clientTemplateName (clientBindings r naming)

def server (index : UInt32) (r : Resource) (naming : Naming) : Except TemplateError String := do
  (← builtIn).render serverTemplateName (serverBindings index r naming)

/-- The key of the region that holds the client rendering. -/
def clientKey (r : Resource) : Region.Key := .name r.name

def serverKey (index : UInt32) : Region.Key := .index index

end Rendering

end ResourceWatch
