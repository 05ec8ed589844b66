import ContainerApplets.Files.Calls
import ContainerApplets.Refusal

/-!
Installing an applet puts a symbolic link to the executable, with the applet's name, into the
install directory. Only links are ever replaced or removed.
-/

namespace ContainerApplets

def linkPath (installDirectory applet : String) : String := Path.join installDirectory applet

def notALink {Value : Type} (path : String) : Outcome Value :=
  .error ⟨[], .note (path ++ " exists and is not a symlink")⟩

/-- Removes a link that is in the way; anything else there is refused. -/
def clearLink (link : String) (files : Files) : Outcome Files :=
  if files.isLink link then Outcome.ofFile ("Failed to replace " ++ link) (files.removeFile link)
  else if files.exists? link then notALink link
  else .ok files

/-- Puts the link where nothing is in the way. -/
def placeLink (executable link : String) (files : Files) : Outcome Files :=
  Outcome.ofFile ("Failed to link " ++ link ++ " -> " ++ executable)
    (files.makeLink executable link)

/-- Removes the link of an applet and says whether there was one. -/
def removeLink (installDirectory applet : String) (files : Files) : Outcome (Bool × Files) :=
  let link := linkPath installDirectory applet
  if files.isLink link then do
    let files ← Outcome.ofFile ("Failed to remove " ++ link) (files.removeFile link)
    return (true, files)
  else if files.exists? link then notALink link
  else .ok (false, files)

end ContainerApplets
