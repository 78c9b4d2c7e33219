import ReactorDeploy.Files.Tree

/-!
# Workspaces

The workspace holds the files of the user that generation takes in. All that matters of it is which
text a file name leads to, if any.
-/

namespace ReactorDeploy

/-- The text of a workspace file, if it is there and readable. -/
abbrev Workspace := String → Option String

namespace Workspace

/-- The workspace without files. -/
def empty : Workspace :=
  fun _ => none

/-- The workspace of the given files, of which the last one of a name counts. -/
def ofFiles (files : List (String × String)) : Workspace :=
  fun name => files.reverse.lookup name

/-- The workspace that a directory of a file tree is. What is no file, or not UTF-8, is not
there. -/
def ofDirectory (t : Files.Tree) (cwd : Files.Location) (directory : String) : Workspace :=
  fun name =>
    let p := Files.Path.ofString (Files.Path.join directory name)
    if t.isFile cwd p then (t.readText cwd p).toOption else none

end Workspace

end ReactorDeploy
