import Voltha.Config.Schema

/-!
# VolthaInstance の schema

`voltha/protos/*.proto` のうち `child_node` と `access` の注釈のある message。
-/

namespace Voltha.Config

/-- key を `id` とする container。 -/
def byId (name type : String) : ChildField := ⟨name, type, .keyed "id" .string⟩

/-- `children_fields`。宣言の順に並べる。 -/
def volthaFields : String → List ChildField
  | "Voltha" =>
    [⟨"instances", "VolthaInstance", .keyed "instance_id" .string⟩, byId "adapters" "Adapter",
      byId "logical_devices" "LogicalDevice", byId "devices" "Device",
      byId "device_groups" "DeviceGroup"]
  | "VolthaInstance" =>
    [⟨"health", "HealthStatus", .single⟩, byId "adapters" "Adapter",
      byId "logical_devices" "LogicalDevice", byId "devices" "Device",
      byId "device_types" "DeviceType", byId "device_groups" "DeviceGroup"]
  | "DeviceGroup" => [byId "logical_devices" "LogicalDevice", byId "devices" "Device"]
  | "LogicalDevice" =>
    [byId "ports" "LogicalPort", ⟨"flows", "Flows", .single⟩,
      ⟨"flow_groups", "FlowGroups", .single⟩]
  | "Device" =>
    [⟨"ports", "Port", .keyed "port_no" .integer⟩, ⟨"flows", "Flows", .single⟩,
      ⟨"flow_groups", "FlowGroups", .single⟩]
  | _ => []

/-- `access_rights` のうち `READ_ONLY` のもの。 -/
def volthaReadOnly : String → List String
  | "Voltha" => ["version"]
  | "VolthaInstance" => ["instance_id", "version"]
  | "DeviceGroup" => ["id"]
  | "HealthStatus" => ["state"]
  | "Adapter" => ["id", "vendor", "version", "additional_description"]
  | "Device" =>
    ["id", "type", "root", "parent_id", "parent_port_no", "vendor", "model", "hardware_version",
      "firmware_version", "software_version", "serial_number", "adapter", "oper_status", "reason",
      "connect_status"]
  | _ => []

/-- 単独の子になる message の既定値。 -/
def volthaDefault : String → Msg
  | "HealthStatus" => .mk ⟨"HealthStatus", [("state", .int 0)]⟩ []
  | "Flows" => .mk ⟨"Flows", [("items", .raw "")]⟩ []
  | "FlowGroups" => .mk ⟨"FlowGroups", [("items", .raw "")]⟩ []
  | ty => .mk ⟨ty, []⟩ []

/-- Voltha の schema。 -/
def volthaSchema : Schema where
  fields := volthaFields
  readOnly := volthaReadOnly
  default := volthaDefault
  names_nodup ty := by unfold volthaFields; split <;> decide
  types_nodup ty := by unfold volthaFields; split <;> decide
  default_type ty := by unfold volthaDefault; split <;> rfl
  full_default ty := by unfold volthaFields; split <;> decide

/-! ## message の組み立て -/

/-- 子の無い message。 -/
def leafMsg (ty : String) (attrs : List (String × Value)) : Msg := .mk ⟨ty, attrs⟩ []

/-- `VolthaInstance`。`health` は既定値。 -/
def instanceMsg (version : String) (adapters logicalDevices devices : List Msg) : Msg :=
  .mk ⟨"VolthaInstance", [("instance_id", .str "1"), ("version", .str version)]⟩
    [("health", []), ("adapters", adapters), ("logical_devices", logicalDevices),
      ("devices", devices), ("device_types", []), ("device_groups", [])]

def adapterMsg (id version : String) : Msg :=
  leafMsg "Adapter" [("id", .str id), ("vendor", .str ""), ("version", .str version)]

def logicalPortMsg (id device : String) : Msg :=
  leafMsg "LogicalPort" [("id", .str id), ("device_id", .str device)]

/-- `LogicalDevice`。`flows` と `flow_groups` は既定値。 -/
def logicalDeviceMsg (id root : String) (ports : List Msg) : Msg :=
  .mk ⟨"LogicalDevice", [("id", .str id), ("root_device_id", .str root)]⟩
    [("ports", ports), ("flows", []), ("flow_groups", [])]

/-- adapter を二つ、logical device を二つ持つ木。 -/
def sampleInstance : Msg :=
  instanceMsg "v0" [adapterMsg "0" "a", adapterMsg "1" "a"]
    [logicalDeviceMsg "L" "" [logicalPortMsg "P" "d0", logicalPortMsg "Q" "q"],
      logicalDeviceMsg "M" "" []] []

end Voltha.Config
