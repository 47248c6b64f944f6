/-
HostTrust.Flavor.Platform — what a flavor is about: a part of the host, on the
platform of a vendor with a version of the TPM.
-/
import HostTrust.Text.Blank
import HostTrust.Text.Letter

namespace HostTrust

/-- The part of a host that a flavor describes. -/
inductive FlavorPart where
  | platform
  | os
  | hostUnique
  | software
  | assetTag
  deriving DecidableEq, Repr

namespace FlavorPart

/-- All parts, in the order in which reports list them. -/
def all : List FlavorPart := [.platform, .os, .hostUnique, .software, .assetTag]

def name : FlavorPart → String
  | .platform => "PLATFORM"
  | .os => "OS"
  | .hostUnique => "HOST_UNIQUE"
  | .software => "SOFTWARE"
  | .assetTag => "ASSET_TAG"

/-- The part with exactly this name. -/
def ofName? (s : String) : Option FlavorPart := all.find? (·.name == s)

/-- The part that a text names; blanks around it and letter case do not matter. -/
def ofText? (s : String) : Option FlavorPart := ofName? (Text.upper (Text.trim s))

end FlavorPart

/-- The vendor of a platform. -/
inductive Vendor where
  | intel
  | vmware
  | microsoft
  deriving DecidableEq, Repr

namespace Vendor

def all : List Vendor := [.intel, .vmware, .microsoft]

def name : Vendor → String
  | .intel => "INTEL"
  | .vmware => "VMWARE"
  | .microsoft => "MICROSOFT"

/-- The vendor with exactly this name. -/
def ofName? (s : String) : Option Vendor := all.find? (·.name == s)

/-- The vendor that a text names; blanks around it and letter case do not matter. -/
def ofText? (s : String) : Option Vendor := ofName? (Text.upper (Text.trim s))

/-- Words in the names of operating systems, and the vendors that they tell. The first
word that occurs decides. -/
def osWords : List (String × Vendor) :=
  [("vmware", .vmware), ("esx", .vmware), ("windows", .microsoft), ("microsoft", .microsoft),
    ("redhat", .intel), ("rhel", .intel), ("ubuntu", .intel), ("centos", .intel),
    ("fedora", .intel), ("suse", .intel), ("debian", .intel), ("linux", .intel)]

/-- The vendor that the name of an operating system tells. -/
def ofOsName? (s : String) : Option Vendor :=
  let os := (Text.lower s).toList
  (osWords.find? fun w => Text.occurs w.1.toList os).map Prod.snd

end Vendor

/-- The version of a TPM. -/
inductive TpmVersion where
  | v12
  | v20
  deriving DecidableEq, Repr

namespace TpmVersion

def name : TpmVersion → String
  | .v12 => "1.2"
  | .v20 => "2.0"

/-- The version that a text names; blanks around it do not matter. -/
def ofText? (s : String) : Option TpmVersion :=
  match Text.trim s with
  | "1.2" => some .v12
  | "2.0" => some .v20
  | "2" => some .v20
  | _ => none

end TpmVersion

end HostTrust
