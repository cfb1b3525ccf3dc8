import DuckLake.Basic
import DuckLake.StringUtil
import DuckLake.Types.LogicalType
import DuckLake.Types.Codec
import DuckLake.Types.RoundTrip
import DuckLake.Types.CaseFolding
import DuckLake.Types.DecimalMembers
import DuckLake.Delete.DeleteMap
import DuckLake.Cleanup.Bind
import DuckLake.Cleanup.Execute
import DuckLake.Update.Sink
import DuckLake.Update.Conservation
import DuckLake.Update.Raises
import DuckLake.Update.Finalize
import DuckLake.Update.BindConstraints
import DuckLake.Update.Plan
