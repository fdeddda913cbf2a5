import McpNg.Python
import McpNg.Stdout
import McpNg.Interpreter
import McpNg.Protobuf
import McpNg.Server
import McpNg.ThreadPool
import McpNg.Process
import McpNg.Process.OneWorker
import McpNg.Process.Conservation
import McpNg.Process.Lasting
import McpNg.Process.Nested
